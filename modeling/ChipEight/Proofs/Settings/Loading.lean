import ChipEight.Proofs.Files.Refusals
import ChipEight.Proofs.Settings.Sections
import ChipEight.Proofs.Toml.Keys

/-!
# Loading settings

* `document reading`      the table in what was read, if there is one;
* `fallBack_of_valid`, `fallBack_document_error_iff`, `fallBack_document_eq_ok`   what is made of it;
* `loadBy_error_iff`, `loadBy_ok`   so in any file system, in which a look at a path can fail too;
* `document? fs path`     the table that the file at a path of the tree holds;
* `exists?_eq_error_iff`  of a path of the tree, only the length of a name is raised;
* `load_outcomes`         when loading fails, what it gives otherwise, and which files are used;
* `load_not_total`        there are files that it fails for.
-/

namespace ChipEight.Settings

variable {fs : Files} {path : String} {o t : Table} {log : List LogEntry}

/-! ## what is made of a document -/

section

variable {reading : Except FileError (List UInt8)} {there : Except FileError Bool}

def document (reading : Except FileError (List UInt8)) : Option Table :=
  match reading with
  | .error _ => none
  | .ok bytes =>
    match String.fromUTF8? ⟨bytes.toArray⟩ with
    | none => none
    | some text => (Toml.parse text).toOption

theorem document_eq_some (h : document reading = some o) :
    ∃ bytes text, reading = .ok bytes ∧
      String.fromUTF8? ⟨bytes.toArray⟩ = some text ∧ Toml.parse text = .ok o := by
  unfold document at h
  split at h
  · cases h
  · rename_i bytes
    split at h
    · cases h
    · rename_i text htext
      cases hparse : Toml.parse text with
      | error e =>
        rw [hparse] at h
        cases h
      | ok t =>
        rw [hparse] at h
        cases h
        exact ⟨bytes, text, rfl, htext, hparse⟩

theorem document_distinct (h : document reading = some o) : o.Distinct := by
  obtain ⟨-, text, -, -, hparse⟩ := document_eq_some h
  exact Toml.parse_distinct hparse

theorem readFile_document (h : document reading = some o) (path : String) :
    readFile path reading = match validate (defaults.merge o) with
      | .error e => .error (.invalid e)
      | .ok () => .ok (defaults.merge o) := by
  obtain ⟨bytes, text, rfl, htext, hparse⟩ := document_eq_some h
  cases hvalid : validate (defaults.merge o) with
  | error e => simp only [readFile, ofBytes, htext, hparse, hvalid]
  | ok u => simp only [readFile, ofBytes, htext, hparse, hvalid]

theorem fallBack_of_no_document (h : document reading = none) (path : String) :
    ∃ log, fallBack (readFile path reading) = .ok (defaults, log) := by
  unfold document at h
  cases reading with
  | error e => exact ⟨_, rfl⟩
  | ok bytes =>
    simp only [readFile, ofBytes] at h ⊢
    cases htext : String.fromUTF8? ⟨bytes.toArray⟩ with
    | none => exact ⟨_, rfl⟩
    | some text =>
      simp only [htext] at h ⊢
      cases hparse : Toml.parse text with
      | error e => exact ⟨_, rfl⟩
      | ok t =>
        rw [hparse] at h
        cases h

theorem validate_defaults : validate defaults = .ok () := by rfl

theorem fallBack_of_valid (h : document reading = some o)
    (hvalid : validate (defaults.merge o) = .ok ()) (path : String) :
    fallBack (readFile path reading) = .ok (defaults.merge o, []) := by
  rw [readFile_document h, hvalid]
  rfl

theorem fallBack_of_wrong_value (h : document reading = some o) {e : SettingsError}
    (hinvalid : validate (defaults.merge o) = .error e) (path : String) :
    fallBack (readFile path reading) = if e.ofValue then
        .ok (defaults, [.error ("Failed to load config: " ++ e.message)])
      else .error (.settings e) := by
  rw [readFile_document h, hinvalid]
  rfl

theorem fallBack_document_error_iff (h : document reading = some o) {e : LoadError} :
    fallBack (readFile path reading) = .error e ↔
      ∃ s, Misshapen o s ∧ e = .settings s.shapeError := by
  have ho := document_distinct h
  constructor
  · intro hload
    cases hvalid : validate (defaults.merge o) with
    | ok u =>
      rw [fallBack_of_valid h hvalid] at hload
      cases hload
    | error e' =>
      rw [fallBack_of_wrong_value h hvalid] at hload
      split at hload
      · cases hload
      · rename_i he
        cases hload
        obtain ⟨s, hs, rfl⟩ := (validate_misshapen_iff ho).1 ⟨hvalid, Bool.eq_false_iff.2 he⟩
        exact ⟨s, hs, rfl⟩
  · rintro ⟨s, hs, rfl⟩
    obtain ⟨hvalid, he⟩ := (validate_misshapen_iff ho).2 ⟨s, hs, rfl⟩
    rw [fallBack_of_wrong_value h hvalid, he]
    rfl

theorem fallBack_document_eq_ok (h : document reading = some o)
    (hload : fallBack (readFile path reading) = .ok (t, log)) :
    (t = defaults ∧ log ≠ []) ∨
      (validate (defaults.merge o) = .ok () ∧ t = defaults.merge o ∧ log = []) := by
  cases hvalid : validate (defaults.merge o) with
  | ok u =>
    rw [fallBack_of_valid h hvalid] at hload
    cases hload
    exact .inr ⟨rfl, rfl, rfl⟩
  | error e =>
    rw [fallBack_of_wrong_value h hvalid] at hload
    split at hload
    · cases hload
      exact .inl ⟨rfl, List.cons_ne_nil _ _⟩
    · cases hload

/-! ## any file system -/

theorem isAbsence_eq_false_iff {why : FileError} :
    isAbsence why = false ↔ why ∉ [.missing, .notFolder, .looped, .embeddedNul] := by
  cases why <;> simp [isAbsence]

theorem present_eq_error_iff {why : FileError} :
    present there = .error why ↔ there = .error why ∧ isAbsence why = false := by
  rcases there with e | b
  · show (if isAbsence e then .ok false else .error e : Except FileError Bool) = _ ↔ _
    cases he : isAbsence e with
    | true =>
      refine iff_of_false nofun ?_
      rintro ⟨⟨⟩, hwhy⟩
      rw [he] at hwhy
      cases hwhy
    | false =>
      refine ⟨fun h => ?_, fun h => h.1⟩
      cases h
      exact ⟨rfl, he⟩
  · exact iff_of_false nofun (fun h => nomatch h.1)

theorem present_eq_true_iff : present there = .ok true ↔ there = .ok true := by
  rcases there with e | b
  · show (if isAbsence e then .ok false else .error e : Except FileError Bool) = _ ↔ _
    cases isAbsence e with
    | true => exact iff_of_false nofun nofun
    | false => exact iff_of_false nofun nofun
  · rfl

theorem loadBy_error_iff {e : LoadError} : loadBy path there reading = .error e ↔
    (∃ why, there = .error why ∧ isAbsence why = false ∧ e = .file path why) ∨
      there = .ok true ∧
        ∃ o s, document reading = some o ∧ Misshapen o s ∧ e = .settings s.shapeError := by
  unfold loadBy
  cases hp : present there with
  | error why =>
    obtain ⟨rfl, hwhy⟩ := present_eq_error_iff.1 hp
    rw [or_iff_left (fun h => nomatch h.1)]
    constructor
    · intro h
      cases h
      exact ⟨why, rfl, hwhy, rfl⟩
    · rintro ⟨_, ⟨⟩, -, rfl⟩
      rfl
  | ok b =>
    have hlook : ¬∃ why, there = .error why ∧ isAbsence why = false ∧ e = .file path why := by
      rintro ⟨why, h, hwhy, -⟩
      cases hp.symm.trans (present_eq_error_iff.2 ⟨h, hwhy⟩)
    rw [or_iff_right hlook]
    cases b with
    | false =>
      refine iff_of_false nofun fun h => ?_
      cases hp.symm.trans (present_eq_true_iff.2 h.1)
    | true =>
      rw [and_iff_right (present_eq_true_iff.1 hp)]
      cases hdoc : document reading with
      | none =>
        obtain ⟨log, hload⟩ := fallBack_of_no_document hdoc path
        exact iff_of_false (hload ▸ nofun) nofun
      | some o =>
        refine (fallBack_document_error_iff hdoc).trans ⟨fun ⟨s, hs⟩ => ⟨o, s, rfl, hs⟩, ?_⟩
        rintro ⟨_, s, ⟨⟩, hs⟩
        exact ⟨s, hs⟩

theorem loadBy_ok (h : loadBy path there reading = .ok (t, log)) : validate t = .ok () ∧
    (t = defaults ∨ ∃ o, document reading = some o ∧ t = defaults.merge o ∧ log = []) := by
  unfold loadBy at h
  split at h
  · cases h
  · cases h
    exact ⟨validate_defaults, .inl rfl⟩
  · cases hdoc : document reading with
    | none =>
      obtain ⟨log', hload⟩ := fallBack_of_no_document hdoc path
      rw [hload] at h
      cases h
      exact ⟨validate_defaults, .inl rfl⟩
    | some o =>
      obtain ⟨rfl, -⟩ | ⟨hvalid, rfl, rfl⟩ := fallBack_document_eq_ok hdoc h
      · exact ⟨validate_defaults, .inl rfl⟩
      · exact ⟨hvalid, .inr ⟨o, rfl, rfl, rfl⟩⟩

end

/-! ## the file tree -/

/-- a path whose file can be read leads to that file -/
theorem read_eq_ok {bytes : List UInt8} (h : fs.read path = .ok bytes) :
    ∃ p, fs.locate path = .ok p ∧ fs.node? p = some (.file bytes) ∧
      Path.folder path = false := by
  unfold Files.read at h
  obtain ⟨p, hp, h⟩ := of_bind_ok h
  refine ⟨p, hp, ?_⟩
  split at h
  · rename_i hn
    split at h
    · cases h
    · rename_i hfolder
      cases h
      exact ⟨hn, Bool.eq_false_iff.2 hfolder⟩
  · cases h
  · cases h

theorem exists?_of_read {bytes : List UInt8} (h : fs.read path = .ok bytes) :
    fs.exists? path = .ok true := by
  obtain ⟨p, hp, hn, hfolder⟩ := read_eq_ok h
  rw [Files.exists?, hp]
  simp only [bind, Except.bind, hn, hfolder]
  rfl

theorem exists?_eq_error_iff {why : FileError} :
    fs.exists? path = .error why ∧ isAbsence why = false ↔
      why = .nameTooLong ∧ fs.locate path = .error .nameTooLong := by
  constructor
  · rintro ⟨h, hwhy⟩
    unfold Files.exists? at h
    obtain hp | ⟨p, -, h⟩ := bind_eq_error_iff.1 h
    · have hnul : why ≠ .embeddedNul := by
        rintro rfl
        cases hwhy
      have hmem := Files.locate_error hp hnul
      simp only [List.mem_cons, List.not_mem_nil, or_false] at hmem
      rcases hmem with rfl | rfl | rfl
      · cases hwhy
      · cases hwhy
      · exact ⟨rfl, hp⟩
    · split at h
      · split at h
        · cases h
          cases hwhy
        · cases h
      · cases h
      · cases h
  · rintro ⟨rfl, hp⟩
    rw [Files.exists?, hp]
    exact ⟨rfl, rfl⟩

def document? (fs : Files) (path : String) : Option Table := document (fs.read (Path.normal path))

theorem document?_distinct (h : document? fs path = some o) : o.Distinct := document_distinct h

theorem exists?_of_document (h : document? fs path = some o) :
    fs.exists? (Path.normal path) = .ok true := by
  obtain ⟨bytes, -, hread, -, -⟩ := document_eq_some h
  exact exists?_of_read hread

theorem load_of_document (h : document? fs path = some o) :
    load fs path = fallBack (readFile (Path.normal path) (fs.read (Path.normal path))) := by
  rw [load, exists?_of_document h]
  rfl

theorem load_document_eq_ok (h : document? fs path = some o) (hload : load fs path = .ok (t, log)) :
    (t = defaults ∧ log ≠ []) ∨
      (validate (defaults.merge o) = .ok () ∧ t = defaults.merge o ∧ log = []) := by
  rw [load_of_document h] at hload
  exact fallBack_document_eq_ok h hload

/-- Loading fails for a path that the system does not let be looked at, unless that says that
nothing is there, and for sections of the wrong shape. In all other cases there are settings that
can be used: the defaults, or what the file holds over them, and it is always the latter that is
used if it can be. In the tree, only the length of a name keeps a path from being looked at. -/
theorem load_outcomes (path : String) (there : Except FileError Bool)
    (reading : Except FileError (List UInt8)) (fs : Files) :
    ((∀ e, loadBy path there reading = .error e ↔
        (∃ why, there = .error why ∧ why ∉ [.missing, .notFolder, .looped, .embeddedNul] ∧
          e = .file path why) ∨
        there = .ok true ∧
          ∃ o s, document reading = some o ∧ Misshapen o s ∧ e = .settings s.shapeError) ∧
      (∀ t log, loadBy path there reading = .ok (t, log) → validate t = .ok () ∧
        (t = defaults ∨ ∃ o, document reading = some o ∧ t = defaults.merge o ∧ log = [])) ∧
      (∀ o, there = .ok true → document reading = some o → validate (defaults.merge o) = .ok () →
        loadBy path there reading = .ok (defaults.merge o, []))) ∧
    (∀ e, load fs path = .error e ↔
      (e = .file (Path.normal path) .nameTooLong ∧
        fs.locate (Path.normal path) = .error .nameTooLong) ∨
      ∃ o s, document? fs path = some o ∧ Misshapen o s ∧ e = .settings s.shapeError) ∧
    (∀ t log, load fs path = .ok (t, log) → validate t = .ok () ∧
      (t = defaults ∨ ∃ o, document? fs path = some o ∧ t = defaults.merge o ∧ log = [])) ∧
    (∀ o, document? fs path = some o → validate (defaults.merge o) = .ok () →
      load fs path = .ok (defaults.merge o, [])) := by
  refine ⟨⟨fun e => ?_, fun t log => loadBy_ok, ?_⟩, fun e => ?_, fun t log => loadBy_ok,
    fun o hdoc hvalid => ?_⟩
  · simp only [← isAbsence_eq_false_iff]
    exact loadBy_error_iff
  · rintro o rfl hdoc hvalid
    exact fallBack_of_valid hdoc hvalid path
  · refine loadBy_error_iff.trans (or_congr ⟨?_, ?_⟩ ⟨fun h => h.2, ?_⟩)
    · rintro ⟨why, hthere, hwhy, rfl⟩
      obtain ⟨rfl, hp⟩ := exists?_eq_error_iff.1 ⟨hthere, hwhy⟩
      exact ⟨rfl, hp⟩
    · rintro ⟨rfl, hp⟩
      obtain ⟨hthere, hwhy⟩ := exists?_eq_error_iff.2 ⟨rfl, hp⟩
      exact ⟨_, hthere, hwhy, rfl⟩
    · rintro ⟨o, s, hdoc, hs⟩
      exact ⟨exists?_of_document hdoc, o, s, hdoc, hs⟩
  · rw [load_of_document hdoc]
    exact fallBack_of_valid hdoc hvalid _

/-- a section that is a number is not made up for -/
theorem load_not_total : ¬∀ fs path, ∃ t log, load fs path = .ok (t, log) := by
  intro h
  obtain ⟨t, log, hload⟩ := h ⟨[(["c.toml"], .file "timing = 5".toUTF8.toList)]⟩ "c.toml"
  have hfails : (load ⟨[(["c.toml"], .file "timing = 5".toUTF8.toList)]⟩ "c.toml").isOk = false := by
    decide +kernel
  rw [hload] at hfails
  cases hfails

end ChipEight.Settings
