import ChipEight.Machine.SaveFile
import ChipEight.Proofs.SaveState.RoundTrip

/-!
# What was written to a file

* `node?_put_self`, `node?_put_ne`   a node is put in its place, and nowhere else;
* `locate_put`     a path leads past directories only, so it leads to where it led before;
* `change_eq_ok`   where a file lies that was changed;
* `read_write`     what was written is read;
* `ofFile_write`   a state that was written is read, by every spelling of its path.
-/

namespace ChipEight

namespace Files

/-! ## nodes -/

theorem lookup_filter_ne {α β : Type} [BEq α] [LawfulBEq α] {p q : α} (h : q ≠ p)
    (l : List (α × β)) : (l.filter (·.1 != p)).lookup q = l.lookup q := by
  induction l with
  | nil => rfl
  | cons e l ih =>
    obtain ⟨a, b⟩ := e
    rw [List.filter_cons, List.lookup_cons]
    by_cases ha : a = p
    · have hq : (q == a) = false := beq_false_of_ne fun hq => h (hq.trans ha)
      rw [if_neg (by simpa using ha), hq, ih]
    · rw [if_pos (by simpa using ha), List.lookup_cons, ih]

variable {fs fs' : Files} {p q : Place} {n : Node} {path name : String} {bytes : List UInt8}

theorem node?_put_self (h : above p = false) (fs : Files) (n : Node) :
    (fs.put p n).node? p = some n := by
  have hnone : (fs.nodes.filter (·.1 != p)).lookup p = none := by
    rw [List.lookup_eq_none_iff]
    intro e he
    have hne := (List.mem_filter.mp he).2
    simpa [bne_comm, beq_eq_false_iff_ne] using hne
  rw [node?, if_neg (ne_true_of_eq_false h), put, List.lookup_append, hnone, List.lookup_cons_self]
  rfl

theorem node?_put_ne (h : q ≠ p) (fs : Files) (n : Node) : (fs.put p n).node? q = fs.node? q := by
  have hq : (q == p) = false := beq_false_of_ne h
  unfold node? put
  rw [List.lookup_append, lookup_filter_ne h, List.lookup_cons, hq, List.lookup_nil,
    Option.or_none]

theorem above_eq_false (h : fs.node? p ≠ some .folder) : above p = false :=
  eq_false_of_ne_true fun ha => h (if_pos ha)

/-! ## paths -/

theorem node?_of_follow (h : fs.follow p name = .ok q) : fs.node? p = some .folder := by
  unfold follow at h
  split at h
  · assumption
  · cases h
  · cases h

theorem follow_put (hp : fs.node? p ≠ some .folder) (n : Node) {r : Place}
    (h : fs.follow q name = .ok r) : (fs.put p n).follow q name = .ok r := by
  have hq : fs.node? q = some .folder := node?_of_follow h
  have hne : q ≠ p := fun hqp => hp (hqp ▸ hq)
  rw [← h, follow, follow, node?_put_ne hne]

theorem foldlM_follow_put (hp : fs.node? p ≠ some .folder) (n : Node) {names : List String}
    {r : Place} (h : names.foldlM fs.follow q = .ok r) :
    names.foldlM (fs.put p n).follow q = .ok r := by
  induction names generalizing q with
  | nil => exact h
  | cons name names ih =>
    rw [List.foldlM_cons] at h ⊢
    rcases hf : fs.follow q name with e | t <;> rw [hf] at h
    · cases h
    · rw [follow_put hp n hf]
      exact ih h

theorem locate_put (hp : fs.node? p ≠ some .folder) (n : Node) (h : fs.locate path = .ok q) :
    (fs.put p n).locate path = .ok q := by
  unfold locate at h ⊢
  split at h
  · cases h
  · split at h
    · cases h
    · split at h
      · cases h
      · rw [if_neg ‹_›, if_neg ‹_›, if_neg ‹_›]
        exact foldlM_follow_put hp n h

/-! ## files -/

theorem change_eq_ok {f : List UInt8 → List UInt8} (h : fs.change path f = .ok fs') :
    ∃ p old, fs.locate path = .ok p ∧ fs.node? p ≠ some .folder ∧ Path.folder path = false ∧
      fs' = fs.put p (.file (f old)) := by
  unfold change at h
  rcases hl : fs.locate path with e | p <;> rw [hl] at h
  · cases h
  · simp only [bind, Except.bind, pure, Except.pure] at h
    split at h
    · rename_i old hnode
      split at h
      · cases h
      · cases h
        exact ⟨p, old, rfl, by rw [hnode]; nofun, eq_false_of_ne_true ‹_›, rfl⟩
    · cases h
    · rename_i hnode
      split at h
      · cases h
      · split at h
        · cases h
          exact ⟨p, [], rfl, by rw [hnode]; nofun, eq_false_of_ne_true ‹_›, rfl⟩
        · cases h
        · cases h

theorem read_write (h : fs.write path bytes = .ok fs') : fs'.read path = .ok bytes := by
  obtain ⟨p, -, hl, hp, hfolder, rfl⟩ := change_eq_ok h
  unfold read
  rw [locate_put hp _ hl]
  simp only [bind, Except.bind, pure, Except.pure]
  rw [node?_put_self (above_eq_false hp)]
  exact if_neg (ne_true_of_eq_false hfolder)

end Files

namespace State

theorem ofFile_write {s : State} (hs : s.WellFormed) {fs fs' : Files} {path : String}
    (h : fs.write path s.image = .ok fs') {given : String} (hg : Path.normal given = path) :
    ofFile fs' given = .ok (.ok s) := by
  rw [ofFile, hg, Files.read_write h]
  show Except.ok ((decode s.image).mapError _) = _
  rw [decode_image hs]
  rfl

end State

end ChipEight
