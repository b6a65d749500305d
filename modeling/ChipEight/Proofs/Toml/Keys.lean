import ChipEight.Proofs.Settings.Tables
import ChipEight.Proofs.Stages
import ChipEight.Toml.Document

/-!
# The keys of a document

* `changeAt_keepsDistinct`   a change below a name gives no table a key twice;
* `Draft.readLine_distinct`, `readLines_distinct`   no line does, and no lines do;
* `parse_distinct`      in the table that a document describes no key comes twice.
-/

namespace ChipEight.Toml

theorem orFail_eq_ok {α : Type} {o : Option α} {a : α} (h : orFail o = .ok a) : o = some a := by
  cases o with
  | none => cases h
  | some b =>
    cases h
    rfl

/-- a change that gives no table a key twice -/
def KeepsDistinct (f : Table → Option Table) : Prop :=
  ∀ t u : Table, t.Distinct → f t = some u → u.Distinct

/-! ## changes -/

theorem addNew_keepsDistinct (key : String) (v : Value) : KeepsDistinct (addNew key v) := by
  intro t u ht h
  unfold addNew at h
  split at h
  · cases h
  · cases h
    exact ht.set key v

theorem addElement_keepsDistinct (key : String) : KeepsDistinct (addElement key) := by
  intro t u ht h
  unfold addElement at h
  split at h
  · cases h
    exact ht.set key _
  · cases h
    exact ht.set key _
  · cases h

/-- the table itself only gets a new value under a key -/
theorem changeAt_keepsDistinct (last : Bool) (name : Name) {f : Table → Option Table}
    (hf : KeepsDistinct f) : KeepsDistinct (changeAt last name f) := by
  intro t u ht h
  cases name with
  | nil => exact hf t u ht h
  | cons k ks =>
    unfold changeAt at h
    split at h
    · obtain ⟨below, -, rfl⟩ := Option.map_eq_some_iff.1 h
      exact ht.set k _
    · obtain ⟨below, -, rfl⟩ := Option.map_eq_some_iff.1 h
      exact ht.set k _
    · split at h
      · obtain ⟨below, -, rfl⟩ := Option.map_eq_some_iff.1 h
        exact ht.set k _
      · cases h
    · cases h

/-! ## lines -/

namespace Draft

variable {d d' : Draft}

theorem openTable_distinct (hd : d.table.Distinct) {name : Name} (h : d.openTable name = .ok d') :
    d'.table.Distinct := by
  unfold openTable at h
  dsimp only at h
  split at h
  · cases h
  · obtain ⟨t, ht, h⟩ := of_bind_ok h
    cases h
    refine changeAt_keepsDistinct true name ?_ d.table t hd (orFail_eq_ok ht)
    intro t u ht h
    cases h
    exact ht

theorem openElement_distinct (hd : d.table.Distinct) {name : Name}
    (h : d.openElement name = .ok d') : d'.table.Distinct := by
  obtain ⟨⟨parents, last⟩, -, h⟩ := of_bind_ok h
  dsimp only at h
  split at h
  · cases h
  · obtain ⟨t, ht, h⟩ := of_bind_ok h
    cases h
    exact changeAt_keepsDistinct true parents (addElement_keepsDistinct last) d.table t hd
      (orFail_eq_ok ht)

theorem assign_distinct (hd : d.table.Distinct) {key : Name} {v : Value}
    (h : d.assign key v = .ok d') : d'.table.Distinct := by
  obtain ⟨⟨parents, last⟩, -, h⟩ := of_bind_ok h
  dsimp only at h
  split at h
  · cases h
  · obtain ⟨t, ht, h⟩ := of_bind_ok h
    cases h
    exact changeAt_keepsDistinct true (d.header ++ parents) (addNew_keepsDistinct last v) d.table t
      hd (orFail_eq_ok ht)

theorem readLine_distinct (hd : d.table.Distinct) {cs rest : List Char}
    (h : d.readLine cs = .ok (d', rest)) : d'.table.Distinct := by
  unfold readLine at h
  split at h
  · obtain ⟨x, -, h⟩ := of_bind_ok h
    split at h
    · obtain ⟨d'', hopen, h⟩ := of_bind_ok h
      cases h
      exact openElement_distinct hd hopen
    · cases h
  · obtain ⟨x, -, h⟩ := of_bind_ok h
    split at h
    · obtain ⟨d'', hopen, h⟩ := of_bind_ok h
      cases h
      exact openTable_distinct hd hopen
    · cases h
  · cases h
    exact hd
  · obtain ⟨x, -, h⟩ := of_bind_ok h
    split at h
    · obtain ⟨⟨v, rest⟩, -, h⟩ := of_bind_ok h
      obtain ⟨d'', hassign, h⟩ := of_bind_ok h
      cases h
      exact assign_distinct hd hassign
    · cases h

theorem readLines_distinct (hd : d.table.Distinct) {n : Nat} {cs : List Char}
    (h : d.readLines n cs = .ok d') : d'.table.Distinct := by
  induction n generalizing d cs with
  | zero =>
    cases h
    exact hd
  | succ n ih =>
    unfold readLines at h
    split at h
    · cases h
      exact hd
    · exact ih hd h
    · obtain ⟨⟨d'', rest⟩, hline, h⟩ := of_bind_ok h
      have hd'' := readLine_distinct hd hline
      obtain ⟨rest', -, h⟩ := of_bind_ok h
      split at h
      · cases h
        exact hd''
      · exact ih hd'' h
      · cases h

end Draft

theorem parse_distinct {text : String} {t : Table} (h : parse text = .ok t) : t.Distinct := by
  have hempty : Draft.empty.table.Distinct := List.nodup_nil
  unfold parse at h
  dsimp only at h
  cases hd : Draft.readLines ((joinLineEnds text.toList).length + 1) .empty
      (joinLineEnds text.toList) with
  | error e =>
    rw [hd] at h
    cases h
  | ok d =>
    rw [hd] at h
    cases h
    exact Draft.readLines_distinct hempty hd

end ChipEight.Toml
