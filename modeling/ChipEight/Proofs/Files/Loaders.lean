import ChipEight.Proofs.Files.Refusals
import ChipEight.Session.Launch

/-!
# What loaders raise

* `FileSystem`          files in any state, each of which may be refused for any reason;
* `raised_iff`          a loader makes a result of what the system refused, and raises the rest;
* `ofReading_raises`, `checkReading_raises`, `state_ofReading_raises`   so each loader raises a path
                        just if it has a zero character;
* `source_raises`, `source_tells`   so does a source that is a file, or it says in a text why there
                        is no machine;
* `FileSystem.loading`  the loaders and the hosts that are made from files;
* `loading_raises`      a path that is raised by all of them.
-/

namespace ChipEight

/-- a file system in any state: what is handed out for each path, and of what is not a path, only a
zero character is noticed before the system sees it -/
structure FileSystem where
  read : Reader
  nul_iff : ∀ path, read path = .error .embeddedNul ↔ '\x00' ∈ path.toList

def Files.system (fs : Files) : FileSystem := ⟨fs.read, fun _ => Files.read_nul_iff⟩

/-- an error that is raised of a path -/
def FileSystem.Raised (path : String) (e : FileError) : Prop :=
  e = .embeddedNul ∧ '\x00' ∈ path.toList

/-! ## loaders -/

section

variable {path : String} {reading : Except FileError (List UInt8)} {e : FileError}

theorem FileError.ofSystem_eq_false_iff : e.ofSystem = false ↔ e = .embeddedNul := by
  cases e <;> simp [ofSystem]

theorem raised_iff {α : Type} {why : FileError} (result : α) :
    (if why.ofSystem then .ok result else .error why : Except FileError α) = .error e ↔
      (.error why : Except FileError (List UInt8)) = .error e ∧ e.ofSystem = false := by
  cases h : why.ofSystem with
  | true =>
    refine iff_of_false nofun ?_
    rintro ⟨heq, he⟩
    cases heq
    rw [h] at he
    cases he
  | false =>
    constructor
    · intro heq
      cases heq
      exact ⟨rfl, h⟩
    · rintro ⟨heq, -⟩
      cases heq
      rfl

theorem Program.ofReading_error_iff :
    Program.ofReading path reading = .error e ↔ reading = .error e ∧ e.ofSystem = false := by
  cases reading with
  | ok bytes => exact iff_of_false nofun nofun
  | error why => exact raised_iff _

theorem Program.checkReading_error_iff :
    Program.checkReading path reading = .error e ↔ reading = .error e ∧ e.ofSystem = false := by
  cases reading with
  | ok bytes =>
    refine iff_of_false ?_ nofun
    unfold checkReading
    dsimp only
    split <;> nofun
  | error why => exact raised_iff _

theorem State.ofReading_error_iff :
    State.ofReading path reading = .error e ↔ reading = .error e ∧ e.ofSystem = false := by
  cases reading with
  | ok bytes => exact iff_of_false nofun nofun
  | error why => exact raised_iff _

end

/-! ## sources -/

namespace Source

variable {read : Reader} {path : String} {dice : Dice}

theorem withProgram_error {dice : Dice} {more : Program → List LogEntry} {loaded : Program.Loaded}
    {e : LaunchError} (h : (withProgram dice more loaded).1 = .error e) :
    ∃ text, e = .unloadable text := by
  unfold withProgram at h
  split at h
  · cases h
  · cases h
    exact ⟨_, rfl⟩

variable {why : FileError} {e : LaunchError}

theorem programFile_raises (h : Program.ofReading path (read path) = .error why) (dice : Dice) :
    ((Source.programFile path).machineBy read dice).1 = .error (.path why) := by
  simp only [machineBy, h]

theorem programFile_tells {loaded : Program.Loaded}
    (h : Program.ofReading path (read path) = .ok loaded)
    (he : ((Source.programFile path).machineBy read dice).1 = .error e) :
    ∃ text, e = .unloadable text := by
  simp only [machineBy, h] at he
  exact withProgram_error he

theorem saveFile_raises (h : State.ofReading path (read (Path.normal path)) = .error why)
    (dice : Dice) : ((Source.saveFile path).machineBy read dice).1 = .error (.path why) := by
  simp only [machineBy, h]

theorem saveFile_tells {loaded : Except SaveFileError State}
    (h : State.ofReading path (read (Path.normal path)) = .ok loaded)
    (he : ((Source.saveFile path).machineBy read dice).1 = .error e) :
    ∃ text, e = .unloadable text := by
  simp only [machineBy, h] at he
  cases loaded with
  | ok s => cases he
  | error err =>
    cases he
    exact ⟨err.message, rfl⟩

end Source

theorem Host.ofLoaded_error {κ : Type} [Clock κ Float] {config : Option Value} {fs : Files}
    {clock : κ} {loaded : Except LaunchError Machine × List LogEntry} {e : LaunchError}
    (h : loaded.1 = .error e) : (Host.ofLoaded config fs clock loaded).1 = .error e := by
  obtain ⟨r, log⟩ := loaded
  cases h
  rfl

/-! ## any state of the file system -/

namespace FileSystem

theorem raised_iff (sys : FileSystem) (path : String) (e : FileError) :
    sys.read path = .error e ∧ e.ofSystem = false ↔ Raised path e := by
  rw [FileError.ofSystem_eq_false_iff, and_comm, Raised, ← sys.nul_iff]
  constructor
  · rintro ⟨rfl, h⟩
    exact ⟨rfl, h⟩
  · rintro ⟨rfl, h⟩
    exact ⟨rfl, h⟩

theorem raised_normal_iff (path : String) (e : FileError) :
    Raised (Path.normal path) e ↔ Raised path e := by
  rw [Raised, Raised, Path.normal_nul_iff]

theorem ok_of_not_raised {α : Type} {path : String} {r : Except FileError α}
    (hr : ∀ e, r = .error e ↔ Raised path e) (h : '\x00' ∉ path.toList) : ∃ v, r = .ok v := by
  cases r with
  | ok v => exact ⟨v, rfl⟩
  | error e => exact absurd ((hr e).mp rfl).2 h

variable (sys : FileSystem) (path : String)

theorem ofReading_raises (e : FileError) :
    Program.ofReading path (sys.read path) = .error e ↔ Raised path e := by
  rw [Program.ofReading_error_iff, sys.raised_iff]

theorem checkReading_raises (e : FileError) :
    Program.checkReading path (sys.read path) = .error e ↔ Raised path e := by
  rw [Program.checkReading_error_iff, sys.raised_iff]

theorem state_ofReading_raises (e : FileError) :
    State.ofReading path (sys.read (Path.normal path)) = .error e ↔ Raised path e := by
  rw [State.ofReading_error_iff, sys.raised_iff, raised_normal_iff]

theorem source_raises {src : Source} (hsrc : src ∈ [Source.programFile path, .saveFile path])
    (h : '\x00' ∈ path.toList) (dice : Dice) :
    (src.machineBy sys.read dice).1 = .error (.path .embeddedNul) := by
  rw [List.mem_cons, List.mem_singleton] at hsrc
  rcases hsrc with rfl | rfl
  · exact Source.programFile_raises ((sys.ofReading_raises path _).mpr ⟨rfl, h⟩) dice
  · exact Source.saveFile_raises ((sys.state_ofReading_raises path _).mpr ⟨rfl, h⟩) dice

theorem source_tells {src : Source} (hsrc : src ∈ [Source.programFile path, .saveFile path])
    (h : '\x00' ∉ path.toList) {dice : Dice} {e : LaunchError}
    (he : (src.machineBy sys.read dice).1 = .error e) : ∃ text, e = .unloadable text := by
  rw [List.mem_cons, List.mem_singleton] at hsrc
  rcases hsrc with rfl | rfl
  · obtain ⟨loaded, hloaded⟩ := ok_of_not_raised (sys.ofReading_raises path) h
    exact Source.programFile_tells hloaded he
  · obtain ⟨loaded, hloaded⟩ := ok_of_not_raised (sys.state_ofReading_raises path) h
    exact Source.saveFile_tells hloaded he

/-- Whatever the state of the files, loaders give a result for every path without a zero character,
and raise the others.  A host that is made from a file says in a text what is wrong with the file,
and raises the same paths. -/
theorem loading :
    (∀ e, Program.ofReading path (sys.read path) = .error e ↔ Raised path e) ∧
    (∀ e, Program.checkReading path (sys.read path) = .error e ↔ Raised path e) ∧
    (∀ e, State.ofReading path (sys.read (Path.normal path)) = .error e ↔ Raised path e) ∧
    (∀ src ∈ [Source.programFile path, .saveFile path], ∀ dice,
      if '\x00' ∈ path.toList then (src.machineBy sys.read dice).1 = .error (.path .embeddedNul)
      else ∀ e, (src.machineBy sys.read dice).1 = .error e → ∃ text, e = .unloadable text) ∧
    ∀ (κ : Type) [Clock κ Float] (config : Option Value) (fs : Files) (clock : κ) (src : Source)
      (dice : Dice) (e : LaunchError), (src.machineBy sys.read dice).1 = .error e →
        (Host.ofLoaded config fs clock (src.machineBy sys.read dice)).1 = .error e := by
  refine ⟨sys.ofReading_raises path, sys.checkReading_raises path, sys.state_ofReading_raises path,
    ?_, fun κ _ config fs clock src dice e he => Host.ofLoaded_error he⟩
  intro src hsrc dice
  split
  · rename_i hnul
    exact sys.source_raises path hsrc hnul dice
  · rename_i hnul
    intro e he
    exact sys.source_tells path hsrc hnul he

/-- every loader raises the path `a\x00b`, and so does a host that is to be made from it -/
theorem loading_raises :
    Program.ofFile .empty "a\x00b" = .error .embeddedNul ∧
    Program.checkFile .empty "a\x00b" = .error .embeddedNul ∧
    State.ofFile .empty "a\x00b" = .error .embeddedNul ∧
    ((Source.programFile "a\x00b").machine .empty (.cycle #[])).1 = .error (.path .embeddedNul) ∧
    ((Source.saveFile "a\x00b").machine .empty (.cycle #[])).1 = .error (.path .embeddedNul) := by
  have hnul : '\x00' ∈ "a\x00b".toList := by decide
  have hraised : Raised "a\x00b" .embeddedNul := ⟨rfl, hnul⟩
  exact ⟨(Files.empty.system.ofReading_raises _ _).mpr hraised,
    (Files.empty.system.checkReading_raises _ _).mpr hraised,
    (Files.empty.system.state_ofReading_raises _ _).mpr hraised,
    Files.empty.system.source_raises _ (.head _) hnul _,
    Files.empty.system.source_raises _ (.tail _ (.head _)) hnul _⟩

end FileSystem

end ChipEight
