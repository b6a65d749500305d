import Mathlib.Data.List.TakeWhile
import ChipEight.Proofs.Settings.Tables

/-!
# The order of a merge

* `Table.merge_eq`          what two tables merge to: the entries of the first, overridden in their
  places, and then what the second adds;
* `Table.keys_merge`        the keys of that, in order;
* `Table.merge_eq_self`     overrides that a table agrees with change nothing;
* `Table.later key`         the entries that follow the one under a key;
* `Table.merge_eq_append`   what follows an override after a merge.
-/

namespace ChipEight.Table

variable {t o : Table} {key : String} {v : Value}

/-! ## the whole of a merge -/

/-- an entry with what the overrides have under its key -/
def overridden (o : Table) (e : String × Value) : String × Value :=
  match o.get? e.1 with
  | some v => (e.1, .over (some e.2) v)
  | none => e

/-- the entries under keys that the table does not have -/
def added (t o : Table) : Table :=
  (o.filter fun e => e.1 ∉ t.keys).map fun e => (e.1, .over none e.2)

theorem set_of_mem (ht : t.Distinct) (hkey : key ∈ t.keys) (v : Value) :
    t.set key v = t.map fun e => if e.1 = key then (key, v) else e := by
  induction t with
  | nil => cases hkey
  | cons p rest ih =>
    obtain ⟨k, w⟩ := p
    obtain ⟨hk, hrest⟩ := (distinct_cons ..).1 ht
    rw [set, List.map_cons]
    by_cases heq : k = key
    · subst heq
      rw [if_pos rfl, if_pos rfl]
      have hid : ∀ e ∈ rest, (if e.1 = k then (k, v) else e) = e := fun e he =>
        if_neg fun (heq : e.1 = k) => hk (heq ▸ mem_keys he)
      rw [List.map_congr_left hid, List.map_id']
    · have hlater : key ∈ keys rest := (List.mem_cons.1 hkey).resolve_left (Ne.symm heq)
      rw [if_neg heq, if_neg heq, ih hrest hlater]

theorem set_of_not_mem (hkey : key ∉ t.keys) (v : Value) : t.set key v = t ++ [(key, v)] := by
  induction t with
  | nil => rfl
  | cons p rest ih =>
    obtain ⟨k, w⟩ := p
    obtain ⟨hk, hlater⟩ := not_or.1 (mt List.mem_cons.2 hkey)
    rw [set, if_neg (Ne.symm hk), ih hlater]
    rfl

theorem overridden_of_not_mem (hkey : key ∉ o.keys) (v : Value) :
    overridden o (key, v) = (key, v) := by
  rw [overridden, get?_eq_none_iff.2 hkey]

theorem overridden_cons_self (e : String × Value) (v : Value) (rest : Table) :
    overridden ((e.1, v) :: rest) e = (e.1, .over (some e.2) v) := by
  rw [overridden, get?_cons, if_pos rfl]

theorem overridden_cons_ne {e : String × Value} (he : key ≠ e.1) (v : Value) (rest : Table) :
    overridden ((key, v) :: rest) e = overridden rest e := by
  rw [overridden, get?_cons, if_neg he, overridden]

theorem merge_eq (ht : t.Distinct) (ho : Distinct o) :
    t.merge o = t.map (overridden o) ++ t.added o := by
  induction o generalizing t with
  | nil =>
    have hid : ∀ e ∈ t, overridden [] e = e := fun _ _ => rfl
    rw [merge_nil, List.map_congr_left hid, List.map_id']
    exact (List.append_nil t).symm
  | cons p rest ih =>
    obtain ⟨k, v⟩ := p
    obtain ⟨hk, hrest⟩ := (distinct_cons ..).1 ho
    rw [merge_cons, ih (ht.set k _) hrest]
    by_cases hkey : k ∈ t.keys
    · have hadded : added (t.set k (.over (t.get? k) v)) rest = t.added ((k, v) :: rest) := by
        rw [added, added, keys_set, if_pos hkey, List.filter_cons_of_neg (by simpa using hkey)]
      rw [hadded, set_of_mem ht hkey, List.map_map]
      refine congrArg (· ++ _) (List.map_congr_left fun e he => ?_)
      by_cases heq : e.1 = k
      · subst heq
        rw [get?_of_mem ht he, overridden_cons_self, Function.comp_apply, if_pos rfl,
          overridden_of_not_mem hk]
      · rw [overridden_cons_ne (Ne.symm heq), Function.comp_apply, if_neg heq]
    · have hadded : t.added ((k, v) :: rest) =
          (k, .over none v) :: added (t.set k (.over (t.get? k) v)) rest := by
        rw [added, added, keys_set, if_neg hkey, List.filter_cons_of_pos (by simpa using hkey),
          List.map_cons]
        refine congrArg (_ :: List.map _ ·) (List.filter_congr fun e he => ?_)
        have hne : e.1 ≠ k := fun heq => hk (heq ▸ mem_keys he)
        simp [hne]
      rw [hadded, set_of_not_mem hkey, get?_eq_none_iff.2 hkey, List.map_append, List.append_assoc]
      have hkept : ∀ e ∈ t, overridden rest e = overridden ((k, v) :: rest) e := fun e he =>
        (overridden_cons_ne (fun (heq : k = e.1) => hkey (heq ▸ mem_keys he)) v rest).symm
      rw [List.map_congr_left hkept, List.map_singleton, overridden_of_not_mem hk]
      rfl

theorem nil_merge (ho : Distinct o) : merge [] o = o := by
  have hid : ∀ e ∈ o, (e.1, Value.over none e.2) = e := fun e _ => by rw [Value.over_none]
  have hnew : o.filter (fun e => e.1 ∉ keys []) = o :=
    List.filter_eq_self.2 fun e _ => decide_eq_true List.not_mem_nil
  have hempty : Distinct [] := List.nodup_nil
  rw [merge_eq hempty ho, added, hnew, List.map_congr_left hid, List.map_id', List.map_nil,
    List.nil_append]

theorem keys_merge (ho : Distinct o) (t : Table) :
    (t.merge o).keys = t.keys ++ (keys o).filter (· ∉ t.keys) := by
  induction o generalizing t with
  | nil =>
    rw [merge_nil]
    exact (List.append_nil _).symm
  | cons p rest ih =>
    obtain ⟨k, v⟩ := p
    obtain ⟨hk, hrest⟩ := (distinct_cons ..).1 ho
    rw [merge_cons, ih hrest, keys_set, keys_cons]
    by_cases hkey : k ∈ t.keys
    · rw [if_pos hkey, List.filter_cons_of_neg (by simpa using hkey)]
    · have hsame : (keys rest).filter (· ∉ t.keys ++ [k]) = (keys rest).filter (· ∉ t.keys) := by
        refine List.filter_congr fun l hl => ?_
        have hne : l ≠ k := fun heq => hk (heq ▸ hl)
        simp [hne]
      rw [if_neg hkey, List.filter_cons_of_pos (by simpa using hkey), hsame, List.append_assoc]
      rfl

/-! ## overrides that say nothing new -/

theorem set_of_get? (h : t.get? key = some v) : t.set key v = t := by
  induction t with
  | nil => cases h
  | cons p rest ih =>
    obtain ⟨k, w⟩ := p
    rw [get?_cons] at h
    rw [set]
    split at h
    · rename_i heq
      cases h
      rw [if_pos heq]
    · rename_i hne
      rw [if_neg hne, ih h]

theorem merge_eq_self (h : ∀ e ∈ o, ∃ w, t.get? e.1 = some w ∧ Value.over (some w) e.2 = w) :
    t.merge o = t := by
  induction o with
  | nil => exact merge_nil t
  | cons p rest ih =>
    obtain ⟨⟨w, hget, hover⟩, hrest⟩ := List.forall_mem_cons.1 h
    rw [merge_cons, hget, hover, set_of_get? hget]
    exact ih hrest

/-! ## places -/

def later (t : Table) (key : String) : Table := (t.dropWhile (·.1 != key)).tail

theorem eq_append_later (hkey : key ∈ t.keys) :
    ∃ before w, t = before ++ (key, w) :: t.later key := by
  induction t with
  | nil => cases hkey
  | cons p rest ih =>
    obtain ⟨k, w⟩ := p
    by_cases heq : k = key
    · subst heq
      refine ⟨[], w, ?_⟩
      rw [later, List.dropWhile_cons_of_neg (by simp)]
      rfl
    · obtain ⟨before, w', hrest⟩ := ih ((List.mem_cons.1 hkey).resolve_left (Ne.symm heq))
      refine ⟨(k, w) :: before, w', ?_⟩
      rw [later, List.dropWhile_cons_of_pos (by simpa using heq), List.cons_append]
      exact congrArg _ hrest

theorem Distinct.ne_of_mem_after {before after : Table} (h : Distinct (before ++ (key, v) :: after))
    {e : String × Value} (he : e ∈ after) : e.1 ≠ key := by
  rw [Distinct, keys, List.map_append] at h
  have hafter := ((distinct_cons ..).1 (List.nodup_append.1 h).2.1).1
  exact fun heq => hafter (heq ▸ mem_keys he)

theorem later_of_not_mem (hkey : key ∉ t.keys) : t.later key = [] := by
  have hall : ∀ e ∈ t, (e.1 != key) = true := fun e he =>
    bne_iff_ne.2 fun heq => hkey (heq ▸ mem_keys he)
  rw [later, List.dropWhile_eq_nil_iff.2 hall, List.tail_nil]

theorem ne_of_mem_later (ht : t.Distinct) {e : String × Value} (he : e ∈ t.later key) :
    e.1 ≠ key := by
  by_cases hkey : key ∈ t.keys
  · obtain ⟨before, w, heq⟩ := eq_append_later hkey
    rw [heq] at ht
    exact ht.ne_of_mem_after he
  · rw [later_of_not_mem hkey] at he
    cases he

theorem mem_of_get? (h : t.get? key = some v) : (key, v) ∈ t := by
  induction t with
  | nil => cases h
  | cons p rest ih =>
    obtain ⟨k, w⟩ := p
    rw [get?_cons] at h
    split at h
    · rename_i heq
      cases h
      exact heq ▸ List.mem_cons_self
    · exact List.mem_cons_of_mem _ (ih h)

theorem overridden_of_mem (ho : o.Distinct) (hplain : ∀ e ∈ o, e.2.isTable = false)
    (hmem : (key, v) ∈ o) (w : Value) : overridden o (key, w) = (key, v) := by
  rw [overridden, get?_of_mem ho hmem]
  dsimp only
  rw [Value.over_of_not_isTable (hplain _ hmem)]

theorem overridden_cases (hplain : ∀ e ∈ o, e.2.isTable = false) (e : String × Value) :
    (overridden o e ∈ o ∧ (overridden o e).1 = e.1) ∨ (overridden o e = e ∧ e.1 ∉ o.keys) := by
  cases hget : o.get? e.1 with
  | none => exact .inr ⟨by rw [overridden, hget], get?_eq_none_iff.1 hget⟩
  | some v =>
    have hmem := mem_of_get? hget
    have heq : overridden o e = (e.1, v) := by
      rw [overridden, hget]
      dsimp only
      rw [Value.over_of_not_isTable (hplain _ hmem)]
    rw [heq]
    exact .inl ⟨hmem, rfl⟩

theorem added_of_plain (hplain : ∀ e ∈ o, e.2.isTable = false) :
    t.added o = o.filter fun e => e.1 ∉ t.keys := by
  have hid : ∀ e ∈ o.filter fun e => e.1 ∉ t.keys, (e.1, Value.over none e.2) = e := fun e he => by
    rw [Value.over_of_not_isTable (hplain e (List.mem_filter.1 he).1)]
  rw [added, List.map_congr_left hid, List.map_id']

theorem mem_of_mem_merge (ht : t.Distinct) (ho : o.Distinct) (hplain : ∀ e ∈ o, e.2.isTable = false)
    {e : String × Value} (he : e ∈ t.merge o) : e ∈ t ∨ e ∈ o := by
  rw [merge_eq ht ho, added_of_plain hplain] at he
  rcases List.mem_append.1 he with hold | hnew
  · obtain ⟨d, hd, rfl⟩ := List.mem_map.1 hold
    rcases overridden_cases hplain d with ⟨hmem, -⟩ | ⟨hid, -⟩
    · exact .inr hmem
    · exact .inl (hid.symm ▸ hd)
  · exact .inr (List.mem_filter.1 hnew).1

/-- Where an entry of the overrides stands after a merge, if they hold no tables: it is followed by
overrides only, and by the entries that stood after it in the table and are not overridden. -/
theorem merge_eq_append (ht : t.Distinct) (ho : Distinct o) (hplain : ∀ e ∈ o, e.2.isTable = false)
    (hmem : (key, v) ∈ o) :
    ∃ before after, t.merge o = before ++ (key, v) :: after ∧
      (∀ e ∈ after, (e ∈ o ∧ e.1 ≠ key) ∨ (e ∈ t.later key ∧ e.1 ∉ o.keys)) ∧
      ∀ e ∈ t.later key, e.1 ∉ o.keys → e ∈ after := by
  rw [merge_eq ht ho, added_of_plain hplain]
  by_cases hkey : key ∈ t.keys
  · obtain ⟨before, w, heq⟩ := eq_append_later hkey
    have hmap : t.map (overridden o) =
        before.map (overridden o) ++ (key, v) :: (t.later key).map (overridden o) := by
      rw [congrArg (List.map (overridden o)) heq, List.map_append, List.map_cons,
        overridden_of_mem ho hplain hmem]
    refine ⟨before.map (overridden o),
      (t.later key).map (overridden o) ++ o.filter fun e => e.1 ∉ t.keys, ?_, fun e he => ?_, ?_⟩
    · rw [hmap, List.append_assoc, List.cons_append]
    · rcases List.mem_append.1 he with hlater | hnew
      · obtain ⟨d, hd, rfl⟩ := List.mem_map.1 hlater
        rcases overridden_cases hplain d with ⟨ho', hkey'⟩ | ⟨hid, hnot⟩
        · exact .inl ⟨ho', hkey' ▸ ne_of_mem_later ht hd⟩
        · exact .inr (hid.symm ▸ ⟨hd, hnot⟩)
      · obtain ⟨he, hnot⟩ := List.mem_filter.1 hnew
        exact .inl ⟨he, fun heq => of_decide_eq_true hnot (heq ▸ hkey)⟩
    · intro e he hnot
      have hid : overridden o e = e := overridden_of_not_mem hnot e.2
      exact List.mem_append_left _ (hid ▸ List.mem_map_of_mem he)
  · obtain ⟨before, after, heq⟩ := List.append_of_mem
      (List.mem_filter.2 ⟨hmem, decide_eq_true hkey⟩ : (key, v) ∈ o.filter fun e => e.1 ∉ t.keys)
    refine ⟨t.map (overridden o) ++ before, after, ?_, fun e he => ?_, ?_⟩
    · rw [heq, List.append_assoc]
    · have hnew : Distinct (o.filter fun e => e.1 ∉ t.keys) :=
        List.Nodup.sublist (List.filter_sublist.map _) ho
      have hfilter : e ∈ o.filter fun e => e.1 ∉ t.keys :=
        heq ▸ List.mem_append_right _ (List.mem_cons_of_mem _ he)
      rw [heq] at hnew
      exact .inl ⟨(List.mem_filter.1 hfilter).1, hnew.ne_of_mem_after he⟩
    · rw [later_of_not_mem hkey]
      nofun

end ChipEight.Table
