import ChipEight.Settings.Value

/-!
# Merging tables

* `Table.merge t o`   the entries of `t`, overridden by those of `o`: where both have a table, the
  two are merged; elsewhere what `o` has takes the place of what `t` has.

Keys of `t` keep their order, new ones follow in the order of `o`.
-/

namespace ChipEight

mutual

/-- `v` over what was there before -/
def Value.over (old : Option Value) : Value → Value
  | .table o =>
    match old with
    | some (.table t) => .table (Table.merge t o)
    | _ => .table o
  | v => v

def Table.merge (t : Table) : List (String × Value) → Table
  | [] => t
  | (key, v) :: rest => Table.merge (t.set key (Value.over (t.get? key) v)) rest

end

theorem Table.merge_nil (t : Table) : Table.merge t [] = t := by rw [Table.merge]
theorem Table.merge_cons (t : Table) (key : String) (v : Value) (rest : Table) :
    Table.merge t ((key, v) :: rest) =
      Table.merge (t.set key (Value.over (t.get? key) v)) rest := by rw [Table.merge]

end ChipEight
