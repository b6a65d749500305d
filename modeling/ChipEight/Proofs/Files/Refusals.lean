import ChipEight.Proofs.Files.ReadBack

/-!
# Paths that are refused

* `locate_error`       what else keeps a path from leading to a place;
* `locate_nul_iff`     a zero character is found in a path, and nothing else looks like one;
* `read_nul_iff`, `append_nul_iff`   so it is for what is read and what is appended;
* `normal_nul_iff`     a normal path has a zero character if the path had one;
* `append_alike`       whether bytes can be appended does not depend on them;
* `append_again`       where some bytes were appended, more can be.
-/

namespace ChipEight

namespace Files

variable {fs fs' : Files} {p q : Place} {path name : String} {bytes : List UInt8}

/-! ## zero characters -/

theorem follow_error {e : FileError} (h : fs.follow p name = .error e) :
    e ∈ [.missing, .notFolder, .nameTooLong] := by
  unfold follow at h
  split at h
  · split at h
    · cases h
    · split at h
      · cases h
      · split at h
        · cases h
          simp
        · cases h
  · cases h
    simp
  · cases h
    simp

theorem foldlM_follow_error {names : List String} {e : FileError}
    (h : names.foldlM fs.follow p = .error e) : e ∈ [.missing, .notFolder, .nameTooLong] := by
  induction names generalizing p with
  | nil => cases h
  | cons name names ih =>
    rw [List.foldlM_cons] at h
    cases hf : fs.follow p name with
    | error e' =>
      rw [hf] at h
      cases h
      exact follow_error hf
    | ok q =>
      rw [hf] at h
      exact ih h

theorem locate_error {e : FileError} (h : fs.locate path = .error e) (hnul : e ≠ .embeddedNul) :
    e ∈ [.missing, .notFolder, .nameTooLong] := by
  unfold locate at h
  split at h
  · cases h
    exact absurd rfl hnul
  · split at h
    · cases h
      simp
    · split at h
      · cases h
        simp
      · exact foldlM_follow_error h

theorem locate_nul_iff : fs.locate path = .error .embeddedNul ↔ '\x00' ∈ path.toList := by
  unfold locate
  by_cases hnul : '\x00' ∈ path.toList
  · rw [if_pos (List.contains_iff_mem.mpr hnul)]
    exact iff_of_true rfl hnul
  · rw [if_neg (mt List.contains_iff_mem.mp hnul)]
    refine iff_of_false ?_ hnul
    split
    · nofun
    · split
      · nofun
      · intro h
        have hmem := foldlM_follow_error h
        simp at hmem

theorem read_nul_iff : fs.read path = .error .embeddedNul ↔ '\x00' ∈ path.toList := by
  refine Iff.trans ?_ (locate_nul_iff : fs.locate path = _ ↔ _)
  unfold read
  cases fs.locate path with
  | error e => exact ⟨fun h => by cases h; rfl, fun h => by cases h; rfl⟩
  | ok p =>
    simp only [bind, Except.bind, pure, Except.pure]
    refine iff_of_false ?_ nofun
    split
    · split <;> nofun
    · nofun
    · nofun

theorem append_nul_iff : fs.append path bytes = .error .embeddedNul ↔ '\x00' ∈ path.toList := by
  refine Iff.trans ?_ (locate_nul_iff : fs.locate path = _ ↔ _)
  unfold append change
  cases fs.locate path with
  | error e => exact ⟨fun h => by cases h; rfl, fun h => by cases h; rfl⟩
  | ok p =>
    simp only [bind, Except.bind, pure, Except.pure]
    refine iff_of_false ?_ nofun
    split
    · split <;> nofun
    · nofun
    · split
      · nofun
      · split <;> nofun

/-! ## one more time -/

theorem append_alike (fs : Files) (path : String) (bytes more : List UInt8) :
    (fs.append path bytes).isOk = (fs.append path more).isOk := by
  unfold append change
  cases fs.locate path with
  | error e => rfl
  | ok p =>
    simp only [bind, Except.bind, pure, Except.pure]
    split
    · split <;> rfl
    · rfl
    · split
      · rfl
      · split <;> rfl

theorem append_again (h : fs.append path bytes = .ok fs') (more : List UInt8) :
    (fs'.append path more).isOk = true := by
  obtain ⟨p, old, hl, hp, hfolder, rfl⟩ := change_eq_ok h
  unfold append change
  rw [locate_put hp _ hl]
  simp only [bind, Except.bind, pure, Except.pure]
  rw [node?_put_self (above_eq_false hp), hfolder]
  rfl

end Files

namespace Path

/-! ## normal paths -/

variable {c : Char}

theorem mem_cut (hc : c ≠ '/') (cs : List Char) : (∃ part ∈ cut cs, c ∈ part) ↔ c ∈ cs := by
  induction cs with
  | nil => simp [cut]
  | cons d cs ih =>
    rw [cut, List.mem_cons, ← ih]
    split
    · rename_i hd
      have hne : c ≠ d := fun h => hc (h.trans hd)
      simp [hne]
    · cases cut cs with
      | nil => simp
      | cons first rest => simp [or_assoc]

theorem mem_parts (hc : c ≠ '/') (s : String) :
    (∃ part ∈ parts s, c ∈ part.toList) ↔ c ∈ s.toList := by
  rw [← mem_cut hc, parts]
  constructor
  · rintro ⟨part, hpart, hmem⟩
    obtain ⟨cs, hcs, rfl⟩ := List.mem_map.mp hpart
    rw [String.toList_ofList] at hmem
    exact ⟨cs, (List.mem_filter.mp hcs).1, hmem⟩
  · rintro ⟨cs, hcs, hmem⟩
    refine ⟨String.ofList cs, List.mem_map.mpr ⟨cs, List.mem_filter.mpr ⟨hcs, ?_⟩, rfl⟩, ?_⟩
    · cases cs with
      | nil => cases hmem
      | cons d cs => rfl
    · rwa [String.toList_ofList]

theorem mem_intercalate {sep : List Char} (hsep : c ∉ sep) (ls : List (List Char)) :
    c ∈ sep.intercalate ls ↔ ∃ l ∈ ls, c ∈ l := by
  induction ls with
  | nil => simp
  | cons l ls ih =>
    cases ls with
    | nil => simp
    | cons m ls =>
      rw [List.intercalate_cons_cons, List.mem_append, List.mem_append, ih]
      simp [hsep]

theorem not_mem_root (hc : c ≠ '/') (s : String) : c ∉ (root s).toList := by
  unfold root
  split <;> simp [hc]

theorem normal_nul_iff (path : String) : '\x00' ∈ (normal path).toList ↔ '\x00' ∈ path.toList := by
  have hslash : '\x00' ≠ '/' := by decide
  have hroot : '\x00' ∉ (root path).toList := not_mem_root hslash path
  have hnamed : '\x00' ∈
      (root path ++ "/".intercalate ((parts path).filter (· != "."))).toList ↔
        '\x00' ∈ path.toList := by
    rw [String.toList_append, List.mem_append, String.toList_intercalate,
      mem_intercalate (by decide), ← mem_parts hslash path]
    constructor
    · rintro (h | ⟨cs, hcs, hmem⟩)
      · exact absurd h hroot
      · obtain ⟨part, hpart, rfl⟩ := List.mem_map.mp hcs
        exact ⟨part, (List.mem_filter.mp hpart).1, hmem⟩
    · rintro ⟨part, hpart, hmem⟩
      have hdot : part ≠ "." := by
        rintro rfl
        revert hmem
        decide
      exact .inr ⟨part.toList, List.mem_map.mpr
        ⟨part, List.mem_filter.mpr ⟨hpart, bne_iff_ne.mpr hdot⟩, rfl⟩, hmem⟩
  rw [normal, ← hnamed]
  split
  · rename_i hempty
    rw [String.isEmpty_iff.mp hempty]
    decide
  · rfl

end Path

end ChipEight
