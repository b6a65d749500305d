import ChipEight.Settings.Merge

/-!
# Tables and their keys

* `Table.keys`, `Distinct`   the keys of a table in order; none of them comes twice;
* `Table.keys_set`           a key that is new stands at the end, any other where it stood;
* `Table.get?_merge`         what is under a key of two tables merged, if no key comes twice.
-/

namespace ChipEight

namespace Value

def isTable : Value → Bool
  | .table _ => true
  | _ => false

theorem over_table (t : Table) (entries : List (String × Value)) :
    Value.over (some (.table t)) (.table entries) = .table (t.merge entries) := by
  rw [Value.over.eq_def]

theorem over_of_not_isTable {v : Value} (h : v.isTable = false) (old : Option Value) :
    Value.over old v = v := by
  cases v with
  | table o => cases h
  | _ => rw [Value.over.eq_def]

theorem over_of_no_table {old : Option Value} (h : ∀ t, old ≠ some (.table t)) (v : Value) :
    Value.over old v = v := by
  cases v with
  | table o =>
    rw [Value.over.eq_def]
    dsimp only
    split
    · rename_i t
      exact absurd rfl (h t)
    · rfl
  | _ => rw [Value.over.eq_def]

theorem over_none (v : Value) : Value.over none v = v :=
  over_of_no_table (fun _ h => by cases h) v

end Value

namespace Table

variable {t o : Table} {key : String} {v : Value}

def keys (t : Table) : List String := t.map (·.1)

def Distinct (t : Table) : Prop := t.keys.Nodup

instance (t : Table) : Decidable t.Distinct := inferInstanceAs (Decidable t.keys.Nodup)

theorem keys_cons (k : String) (v : Value) (rest : Table) :
    keys ((k, v) :: rest) = k :: keys rest := rfl

theorem mem_keys {e : String × Value} (he : e ∈ t) : e.1 ∈ t.keys := List.mem_map_of_mem he

theorem distinct_cons (k : String) (v : Value) (rest : Table) :
    Distinct ((k, v) :: rest) ↔ k ∉ keys rest ∧ Distinct rest := List.nodup_cons

theorem keys_set (t : Table) (key : String) (v : Value) :
    (t.set key v).keys = if key ∈ t.keys then t.keys else t.keys ++ [key] := by
  induction t with
  | nil => rfl
  | cons p rest ih =>
    obtain ⟨k, w⟩ := p
    by_cases hk : k = key
    · subst hk
      rw [set, if_pos rfl, keys_cons, keys_cons, if_pos List.mem_cons_self]
    · have hmem : key ∈ k :: keys rest ↔ key ∈ keys rest := by
        rw [List.mem_cons, or_iff_right (Ne.symm hk)]
      rw [set, if_neg hk, keys_cons, keys_cons, ih]
      simp only [hmem]
      split <;> rfl

theorem Distinct.set (h : t.Distinct) (key : String) (v : Value) : (t.set key v).Distinct := by
  rw [Distinct, keys_set]
  split
  · exact h
  · rename_i hkey
    refine List.nodup_append.2 ⟨h, List.pairwise_singleton .., fun k hk l hl heq => ?_⟩
    exact hkey (List.mem_singleton.1 hl ▸ heq ▸ hk)

theorem get?_eq_none_iff : t.get? key = none ↔ key ∉ t.keys := by
  induction t with
  | nil => exact iff_of_true rfl (List.not_mem_nil)
  | cons p rest ih =>
    obtain ⟨k, w⟩ := p
    rw [get?_cons, keys_cons, List.mem_cons, not_or]
    split
    · simp_all
    · simp_all [eq_comm]

theorem get?_of_mem (h : t.Distinct) (hmem : (key, v) ∈ t) : t.get? key = some v := by
  induction t with
  | nil => cases hmem
  | cons p rest ih =>
    obtain ⟨k, w⟩ := p
    obtain ⟨hk, hrest⟩ := (distinct_cons ..).1 h
    rw [get?_cons]
    rcases List.mem_cons.1 hmem with heq | hlater
    · cases heq
      exact if_pos rfl
    · have hkey : key ∈ keys rest := mem_keys hlater
      rw [if_neg (fun (heq : k = key) => hk (heq ▸ hkey)), ih hrest hlater]

/-- an entry of the overrides, over the entry of the table -/
theorem get?_merge (ho : Distinct o) (t : Table) (key : String) :
    (t.merge o).get? key =
      match o.get? key with
      | some v => some (Value.over (t.get? key) v)
      | none => t.get? key := by
  induction o generalizing t with
  | nil => rw [merge_nil, get?_nil]
  | cons p rest ih =>
    obtain ⟨k, v⟩ := p
    obtain ⟨hk, hrest⟩ := (distinct_cons ..).1 ho
    rw [merge_cons, ih hrest, get?_cons, get?_set]
    by_cases hkey : k = key
    · subst hkey
      rw [get?_eq_none_iff.2 hk, if_pos rfl, if_pos rfl]
    · rw [if_neg hkey, if_neg hkey]

theorem isSome_get?_merge (h : (t.get? key).isSome) (o : List (String × Value)) :
    ((t.merge o).get? key).isSome := by
  induction o generalizing t with
  | nil => rwa [merge_nil]
  | cons p rest ih =>
    obtain ⟨k, v⟩ := p
    rw [merge_cons]
    refine ih ?_
    rw [get?_set]
    split
    · rfl
    · exact h

end Table

end ChipEight
