import ChipEight.Proofs.Settings.Merging

/-!
# Values at key paths

A path of keys leads into tables within tables.

* `Value.at? v path`      what lies at the end of a path;
* `Value.Lacks v path`    the path goes through tables until a key is missing;
* `Value.Tidy v`          in no table that a path leads to a key comes twice;
* `at?_over`, `at?_over_lacking`, `at?_over_none`   what lies at a path in a value over another;
* `over_over`             the same value over what it has overridden changes nothing;
* `Table.keysAt t path`   the keys of the table at the end of a path, in order;
* `Table.merge_paths`     all of this for two tables merged.

Only the overrides have to be tidy: what they are merged into may be any table.
-/

namespace ChipEight

namespace Value

def at? : Value → List String → Option Value
  | v, [] => some v
  | .table t, key :: path => (Table.get? t key).bind (·.at? path)
  | _, _ :: _ => none

inductive Lacks : Value → List String → Prop
  | missing {t : Table} {key : String} (h : t.get? key = none) (path : List String) :
      Lacks (.table t) (key :: path)
  | within {t : Table} {key : String} {v : Value} {path : List String} (h : t.get? key = some v)
      (hv : Lacks v path) : Lacks (.table t) (key :: path)

def Tidy (v : Value) : Prop := ∀ path t, v.at? path = some (.table t) → Table.Distinct t

variable {v w : Value} {t o : Table} {key : String} {path : List String} {old : Option Value}

theorem at?_nil (v : Value) : v.at? [] = some v := by rw [at?.eq_def]
theorem at?_table (t : Table) (key : String) (path : List String) :
    (table t).at? (key :: path) = (t.get? key).bind (·.at? path) := by rw [at?]

theorem at?_of_not_isTable (h : v.isTable = false) (key : String) (path : List String) :
    v.at? (key :: path) = none := by
  cases v with
  | table t => cases h
  | _ => rw [at?.eq_def]

theorem Lacks.at?_eq_none (h : v.Lacks path) : v.at? path = none := by
  induction h with
  | missing hkey path => rw [at?_table, hkey, Option.bind_none]
  | within hkey _ ih =>
    rw [at?_table, hkey]
    exact ih

/-! ## tidy values -/

theorem Tidy.distinct (h : (table t).Tidy) : t.Distinct := h [] t (at?_nil _)

theorem Tidy.below (h : (table t).Tidy) (hkey : t.get? key = some v) : v.Tidy := by
  intro path u hu
  refine h (key :: path) u ?_
  rw [at?_table, hkey]
  exact hu

theorem tidy_of_not_isTable (h : v.isTable = false) : v.Tidy := by
  intro path t ht
  cases path with
  | nil =>
    rw [at?_nil] at ht
    cases ht
    cases h
  | cons key path =>
    rw [at?_of_not_isTable h] at ht
    cases ht

theorem tidy_table (ht : t.Distinct) (hentries : ∀ e ∈ t, e.2.Tidy) : (table t).Tidy := by
  intro path u hu
  cases path with
  | nil =>
    rw [at?_nil] at hu
    cases hu
    exact ht
  | cons key path =>
    rw [at?_table] at hu
    obtain ⟨v, hkey, hv⟩ := Option.bind_eq_some_iff.1 hu
    exact hentries _ (Table.mem_of_get? hkey) path u hv

/-! ## a value over another -/

/-- there is a table already, or there is none -/
theorem table_or_not (old : Option Value) :
    (∃ t, old = some (.table t)) ∨ ∀ t, old ≠ some (.table t) := by
  by_cases h : ∃ t, old = some (.table t)
  · exact .inl h
  · exact .inr fun t ht => h ⟨t, ht⟩

theorem bind_at?_of_no_table (h : ∀ t, old ≠ some (.table t)) (key : String)
    (path : List String) : old.bind (·.at? (key :: path)) = none := by
  cases old with
  | none => rfl
  | some v =>
    refine at?_of_not_isTable ?_ key path
    cases v with
    | table t => exact absurd rfl (h t)
    | _ => rfl

theorem at?_over (hv : v.Tidy) (h : v.at? path = some w) (old : Option Value) :
    (Value.over old v).at? path = some (Value.over (old.bind (·.at? path)) w) := by
  induction path generalizing v old with
  | nil =>
    rw [at?_nil] at h
    cases h
    rw [at?_nil]
    cases old <;> rfl
  | cons key path ih =>
    cases v with
    | table o =>
      rw [at?_table] at h
      obtain ⟨u, hu, hw⟩ := Option.bind_eq_some_iff.1 h
      rcases table_or_not old with ⟨t, rfl⟩ | hold
      · rw [over_table, at?_table, Table.get?_merge hv.distinct, hu, Option.bind_some,
          Option.bind_some, at?_table]
        exact ih (hv.below hu) hw (Table.get? t key)
      · rw [over_of_no_table hold, bind_at?_of_no_table hold, over_none, at?_table, hu]
        exact hw
    | _ =>
      rw [at?.eq_def] at h
      cases h

/-- where a key is missing, what was there before is still there -/
theorem at?_over_lacking (hv : v.Tidy) (h : v.Lacks path) (old : Option Value) :
    (Value.over old v).at? path = old.bind (·.at? path) := by
  induction h generalizing old with
  | @missing o key hkey path =>
    rcases table_or_not old with ⟨t, rfl⟩ | hold
    · rw [over_table, at?_table, Table.get?_merge hv.distinct, hkey, Option.bind_some, at?_table]
    · rw [over_of_no_table hold, bind_at?_of_no_table hold, at?_table, hkey, Option.bind_none]
  | @within o key u path hu hlacks ih =>
    rcases table_or_not old with ⟨t, rfl⟩ | hold
    · rw [over_table, at?_table, Table.get?_merge hv.distinct, hu, Option.bind_some,
        Option.bind_some, at?_table]
      exact ih (hv.below hu) (Table.get? t key)
    · have hnone := ih (hv.below hu) none
      rw [over_none] at hnone
      rw [over_of_no_table hold, bind_at?_of_no_table hold, at?_table, hu]
      exact hnone

theorem at?_over_none (hv : v.Tidy) (h : v.at? path = none) (hlacks : ¬v.Lacks path)
    (old : Option Value) : (Value.over old v).at? path = none := by
  induction path generalizing v old with
  | nil =>
    rw [at?_nil] at h
    cases h
  | cons key path ih =>
    cases v with
    | table o =>
      cases hu : Table.get? o key with
      | none => exact absurd (.missing hu path) hlacks
      | some u =>
        have hnone : u.at? path = none := by rwa [at?_table, hu] at h
        rcases table_or_not old with ⟨t, rfl⟩ | hold
        · rw [over_table, at?_table, Table.get?_merge hv.distinct, hu]
          exact ih (hv.below hu) hnone (fun hl => hlacks (.within hu hl)) (Table.get? t key)
        · rw [over_of_no_table hold, h]
    | _ => rw [over_of_not_isTable rfl, h]

/-! ## the same value again -/

/-- what holds of each table if it holds of the values in it, and of all that is no table -/
theorem induction_tables {P : Value → Prop} (hplain : ∀ v, v.isTable = false → P v)
    (htable : ∀ t : Table, (∀ e ∈ t, P e.2) → P (.table t)) : ∀ v, P v
  | .table t => htable t fun e he => by
    have hlt : sizeOf e.2 < sizeOf (Value.table t) := by
      have hmem := List.sizeOf_lt_of_mem he
      obtain ⟨k, w⟩ := e
      simp only [Prod.mk.sizeOf_spec, table.sizeOf_spec] at hmem ⊢
      omega
    exact induction_tables hplain htable e.2
  | .null => hplain _ rfl
  | .bool _ => hplain _ rfl
  | .int _ => hplain _ rfl
  | .float _ => hplain _ rfl
  | .str _ => hplain _ rfl
  | .list _ => hplain _ rfl
  | .moment _ => hplain _ rfl
termination_by v => sizeOf v
decreasing_by exact hlt

theorem exists_over_table (ho : Table.Distinct o) (old : Option Value) :
    ∃ t : Table, Value.over old (.table o) = .table (t.merge o) := by
  rcases table_or_not old with ⟨t, rfl⟩ | hold
  · exact ⟨t, over_table t o⟩
  · exact ⟨[], by rw [over_of_no_table hold, Table.nil_merge ho]⟩

theorem over_over (hv : v.Tidy) (old : Option Value) :
    Value.over (some (Value.over old v)) v = Value.over old v := by
  induction v using induction_tables generalizing old with
  | hplain v h => rw [over_of_not_isTable h, over_of_not_isTable h]
  | htable o ih =>
    obtain ⟨t, ht⟩ := exists_over_table hv.distinct old
    rw [ht, over_table]
    refine congrArg table (Table.merge_eq_self fun e he => ?_)
    have hget := Table.get?_of_mem hv.distinct he
    refine ⟨Value.over (t.get? e.1) e.2, ?_, ih e he (hv.below hget) _⟩
    rw [Table.get?_merge hv.distinct, hget]

end Value

namespace Table

variable {t o : Table} {v : Value} {path : List String}

/-! ## merging by paths -/

def at? (t : Table) (path : List String) : Option Value := (Value.table t).at? path

def Lacks (t : Table) (path : List String) : Prop := (Value.table t).Lacks path

def Tidy (t : Table) : Prop := (Value.table t).Tidy

def keysAt (t : Table) (path : List String) : List String :=
  match t.at? path with
  | some (.table u) => keys u
  | _ => []

theorem Lacks.at?_eq_none (h : t.Lacks path) : t.at? path = none := Value.Lacks.at?_eq_none h

theorem keysAt_of_table {u : Table} (h : t.at? path = some (.table u)) :
    t.keysAt path = u.keys := by
  rw [keysAt, h]

theorem keysAt_of_no_table (h : ∀ u, t.at? path ≠ some (.table u)) : t.keysAt path = [] := by
  unfold keysAt
  split
  · rename_i u hu
    exact absurd hu (h u)
  · rfl

theorem at?_merge (ho : o.Tidy) (h : o.at? path = some v) :
    (t.merge o).at? path = some (Value.over (t.at? path) v) := by
  have hover := Value.at?_over ho h (some (.table t))
  rwa [Value.over_table] at hover

theorem at?_merge_lacking (ho : o.Tidy) (h : o.Lacks path) :
    (t.merge o).at? path = t.at? path := by
  have hover := Value.at?_over_lacking ho h (some (.table t))
  rwa [Value.over_table] at hover

theorem at?_merge_none (ho : o.Tidy) (h : o.at? path = none) (hlacks : ¬o.Lacks path) :
    (t.merge o).at? path = none := by
  have hover := Value.at?_over_none ho h hlacks (some (.table t))
  rwa [Value.over_table] at hover

theorem isSome_at?_merge (ho : o.Tidy) :
    ((t.merge o).at? path).isSome ↔
      (o.at? path).isSome ∨ (t.at? path).isSome ∧ o.Lacks path := by
  by_cases hlacks : o.Lacks path
  · simp [at?_merge_lacking ho hlacks, hlacks.at?_eq_none, hlacks]
  · cases h : o.at? path with
    | some v => simp [at?_merge ho h]
    | none => simp [at?_merge_none ho h hlacks, hlacks]

theorem keys_at?_merge (ho : o.Tidy) {r : Table} (h : (t.merge o).at? path = some (.table r)) :
    r.keys = t.keysAt path ++ (o.keysAt path).filter (· ∉ t.keysAt path) := by
  by_cases hlacks : o.Lacks path
  · rw [at?_merge_lacking ho hlacks] at h
    have hnone : o.keysAt path = [] :=
      keysAt_of_no_table fun u hu => by rw [hlacks.at?_eq_none] at hu; cases hu
    rw [hnone, keysAt_of_table h]
    exact (List.append_nil _).symm
  · cases hv : o.at? path with
    | none =>
      rw [at?_merge_none ho hv hlacks] at h
      cases h
    | some v =>
      rw [at?_merge ho hv] at h
      cases v with
      | table u =>
        rw [keysAt_of_table hv]
        rcases Value.table_or_not (t.at? path) with ⟨w, hw⟩ | hnot
        · rw [hw, Value.over_table] at h
          cases h
          rw [keysAt_of_table hw, keys_merge (ho path u hv)]
        · rw [Value.over_of_no_table hnot] at h
          cases h
          rw [keysAt_of_no_table hnot, List.nil_append,
            List.filter_eq_self.2 fun _ _ => decide_eq_true List.not_mem_nil]
      | _ =>
        rw [Value.over_of_not_isTable rfl] at h
        cases h

theorem merge_merge (ho : o.Tidy) (t : Table) : (t.merge o).merge o = t.merge o := by
  have h := Value.over_over ho (some (.table t))
  rw [Value.over_table, Value.over_table] at h
  exact Value.table.inj h

/-- What a merge of two tables holds at every path, if in no table of the overrides a key comes
twice: an override that is no table; a value whose path the overrides lack; a table of the
overrides where there is none, and the merge of two tables where there are two; and nothing else.
In every table that there is, the keys that were there keep their order and those of the overrides
follow in theirs. Merging the same overrides again changes nothing. -/
theorem merge_paths (ho : o.Tidy) (t : Table) :
    (∀ path v, o.at? path = some v → v.isTable = false → (t.merge o).at? path = some v) ∧
    (∀ path v, t.at? path = some v → o.Lacks path → (t.merge o).at? path = some v) ∧
    (∀ path u, o.at? path = some (.table u) → (∀ w, t.at? path ≠ some (.table w)) →
      (t.merge o).at? path = some (.table u)) ∧
    (∀ path (u w : Table), o.at? path = some (.table u) → t.at? path = some (.table w) →
      (t.merge o).at? path = some (.table (w.merge u))) ∧
    (∀ path, ((t.merge o).at? path).isSome ↔
      (o.at? path).isSome ∨ (t.at? path).isSome ∧ o.Lacks path) ∧
    (∀ path (r : Table), (t.merge o).at? path = some (.table r) →
      r.keys = t.keysAt path ++ (o.keysAt path).filter (· ∉ t.keysAt path)) ∧
    (t.merge o).merge o = t.merge o := by
  refine ⟨?_, ?_, ?_, ?_, fun path => isSome_at?_merge ho, fun path r => keys_at?_merge ho,
    merge_merge ho t⟩
  · intro path v hv hplain
    rw [at?_merge ho hv, Value.over_of_not_isTable hplain]
  · intro path v hv hlacks
    rw [at?_merge_lacking ho hlacks, hv]
  · intro path u hu hnot
    rw [at?_merge ho hu, Value.over_of_no_table hnot]
  · intro path u w hu hw
    rw [at?_merge ho hu, hw, Value.over_table]

/-- two bindings, and a number -/
def twoBindings : Table :=
  [("keyboard", .table [("5", .str "w"), ("6", .str "e")]), ("trace", .int 1)]

/-- another binding before one of these, and a table where the number is -/
def overTwoBindings : Table :=
  [("hz", .int 60), ("trace", .table [("on", .bool true)]),
   ("keyboard", .table [("9", .str "up"), ("5", .str "x")])]

theorem overTwoBindings_tidy : overTwoBindings.Tidy := by
  refine Value.tidy_table (by decide) ?_
  simp only [overTwoBindings, List.forall_mem_cons]
  refine ⟨Value.tidy_of_not_isTable rfl, Value.tidy_table (by decide) ?_,
    Value.tidy_table (by decide) ?_, nofun⟩
  · simp only [List.forall_mem_cons]
    exact ⟨Value.tidy_of_not_isTable rfl, nofun⟩
  · simp only [List.forall_mem_cons]
    exact ⟨Value.tidy_of_not_isTable rfl, Value.tidy_of_not_isTable rfl, nofun⟩

theorem merge_paths_twoBindings :
    overTwoBindings.Tidy ∧
    (twoBindings.merge overTwoBindings).at? ["keyboard", "5"] = some (.str "x") ∧
    (twoBindings.merge overTwoBindings).at? ["keyboard", "6"] = some (.str "e") ∧
    (twoBindings.merge overTwoBindings).at? ["trace"] = some (.table [("on", .bool true)]) ∧
    (twoBindings.merge overTwoBindings).at? ["keyboard", "7"] = none ∧
    (twoBindings.merge overTwoBindings).keys = ["keyboard", "trace", "hz"] ∧
    (∀ r, (twoBindings.merge overTwoBindings).at? ["keyboard"] = some (.table r) →
      keys r = ["5", "6", "9"]) := by
  obtain ⟨hplain, hkept, htable, -, hpaths, hkeys, -⟩ :=
    merge_paths overTwoBindings_tidy twoBindings
  have hlacks : ∀ key, key ≠ "9" ∧ key ≠ "5" → overTwoBindings.Lacks ["keyboard", key] := by
    rintro key ⟨h9, h5⟩
    refine .within (v := .table [("9", .str "up"), ("5", .str "x")]) rfl (.missing ?_ [])
    rw [get?_cons, get?_cons, if_neg (Ne.symm h9), if_neg (Ne.symm h5), get?_nil]
  refine ⟨overTwoBindings_tidy, hplain _ _ rfl rfl, hkept _ _ rfl (hlacks "6" (by decide)),
    htable _ _ rfl nofun, ?_, hkeys [] _ rfl, fun r => hkeys ["keyboard"] r⟩
  refine Option.not_isSome_iff_eq_none.1 (mt (hpaths ["keyboard", "7"]).1 ?_)
  rintro (h | ⟨h, -⟩) <;> cases h

end Table

end ChipEight
