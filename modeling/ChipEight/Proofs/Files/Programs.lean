import ChipEight.Proofs.Machine.Operations
import ChipEight.Proofs.Machine.Transfers
import ChipEight.Program

/-!
# Programs from bytes and from files

A program is cut to the room that memory has for it, once when it is made of bytes or of a file and
once more when it is put in memory.

* `Ram.load_take`        what does not fit makes no difference to memory;
* `get_load_inside`, `get_load_outside`   memory with a program in it, byte by byte;
* `Program.ofBytes_some`   some bytes are a program;
* `checkReading_none_iff`, `checkReading_some_iff`   nothing is wrong with a file that can be read
                         just if it makes a program, and otherwise that is wrong for which it does
                         not;
* `loads_agree`          so all ways of loading a program do the same.
-/

namespace ChipEight

/-! ## memory -/

namespace Ram

variable {r : Ram} {image : List UInt8} {k : Nat} {a : Fin 4096}

theorem load_take (r : Ram) (image : List UInt8) :
    r.load (image.take programRoom) = r.load image := by
  rw [load, load, List.take_take, Nat.min_self]

theorem loaded_take (image : List UInt8) : loaded (image.take programRoom) = loaded image := by
  rw [loaded, loaded, List.length_take]
  omega

theorem length_take_room (image : List UInt8) :
    (image.take programRoom).length = loaded image := by
  rw [loaded, List.length_take, Nat.min_comm]

theorem get_load_inside (hk : k < loaded image) (ha : programStart + k = a.val) :
    image[k]? = some ((r.load image).get a) := by
  have hroom : k < programRoom := Nat.lt_of_lt_of_le hk (Nat.min_le_right ..)
  rw [load, ← get_overlay_inside (by rwa [length_take_room]) ha, List.getElem?_take_of_lt hroom]

theorem get_load_outside (h : ¬(programStart ≤ a.val ∧ a.val < programStart + loaded image)) :
    (r.load image).get a = r.get a := by
  rw [load, get_overlay_outside (by rwa [length_take_room])]

end Ram

namespace Program

variable {bytes : List UInt8} {path : String} {log : List LogEntry}

/-! ## bytes and files -/

theorem ofBytes_some (h : bytes ≠ []) :
    ∃ log, ofBytes bytes = (.ok ⟨"", bytes.take programRoom⟩, log) := by
  cases bytes with
  | nil => exact absurd rfl h
  | cons b rest => exact ⟨_, rfl⟩

theorem checkReading_none_iff :
    checkReading path (.ok bytes) = .ok (none, log) ↔
      ∃ p, ofReading path (.ok bytes) = .ok (.ok p, log) := by
  rcases h : ofBytes bytes with ⟨why | p, said⟩
  · simp [checkReading, ofReading, h, Except.map]
  · simp [checkReading, ofReading, h, Except.map]

theorem checkReading_some_iff {text : String} :
    checkReading path (.ok bytes) = .ok (some text, log) ↔
      ∃ why, ofReading path (.ok bytes) = .ok (.error why, log) ∧ why.message = text := by
  rcases h : ofBytes bytes with ⟨why | p, said⟩
  · simp [checkReading, ofReading, h, Except.map, and_comm]
  · simp [checkReading, ofReading, h, Except.map]

/-- a file that can be read is answered for -/
theorem checkReading_answers (path : String) (bytes : List UInt8) :
    ∃ answer, checkReading path (.ok bytes) = .ok answer := by
  rcases h : ofBytes bytes with ⟨why | p, said⟩
  · simp [checkReading, h]
  · simp [checkReading, h]

/-- Some bytes are a program. To put them in memory or the program that they make, by themselves or
as the contents of a file, is the same for every machine: the same number of bytes is loaded, as
many as there are or as there is room for; these stand in memory from the start of programs on, and
all other bytes and the rest of the machine are as before. Of a file that can be read, whatever is
in it, nothing is found wrong just if it makes a program, and otherwise what is wrong is the reason
why it makes none. -/
theorem loads_agree :
    (∀ bytes : List UInt8, bytes ≠ [] → ∃ p log, ofBytes bytes = (.ok p, log) ∧
      (∀ m : Machine,
        m.perform (.load p.image) = m.perform (.load bytes) ∧
        (m.perform (.load bytes)).2 = .loaded (min bytes.length 3584) ∧
        ∃ ram, (m.perform (.load bytes)).1 = { m with state := { m.state with ram } } ∧
          (∀ (k : Nat) (a : Fin 4096), k < min bytes.length 3584 → 0x200 + k = a.val →
            bytes[k]? = some (ram.get a)) ∧
          ∀ a : Fin 4096, ¬(0x200 ≤ a.val ∧ a.val < 0x200 + min bytes.length 3584) →
            ram.get a = m.state.ram.get a) ∧
      ∀ (read : Reader) path, read path = .ok bytes →
        ofReading path (read path) = .ok (.ok { p with file := path }, log)) ∧
    ∀ (read : Reader) path content, read path = .ok content →
      (∃ answer, checkReading path (read path) = .ok answer) ∧
      (∀ log, checkReading path (read path) = .ok (none, log) ↔
        ∃ p, ofReading path (read path) = .ok (.ok p, log)) ∧
      ∀ text log, checkReading path (read path) = .ok (some text, log) ↔
        ∃ why, ofReading path (read path) = .ok (.error why, log) ∧ why.message = text := by
  constructor
  · intro bytes hbytes
    obtain ⟨log, hprogram⟩ := ofBytes_some hbytes
    refine ⟨_, log, hprogram, ?_, ?_⟩
    · intro m
      refine ⟨?_, rfl, m.state.ram.load bytes, ?_, ?_, ?_⟩
      · simp only [Machine.perform, Machine.load, Ram.load_take, Ram.loaded_take]
      · simp only [Machine.perform, Machine.load, Machine.mapState]
      · intro k a hk ha
        exact Ram.get_load_inside hk ha
      · intro a ha
        exact Ram.get_load_outside ha
    · intro read path hread
      rw [hread, ofReading, hprogram]
      rfl
  · intro read path content hread
    rw [hread]
    exact ⟨checkReading_answers path content, fun log => checkReading_none_iff,
      fun text log => checkReading_some_iff⟩

/-- sixteen bytes more than there is room for -/
def overfull : List UInt8 := List.replicate 3600 7

/-- a file that holds them, and one that is empty -/
def overfullAndEmpty : Files := ⟨[(["p"], .file overfull), (["q"], .file [])]⟩

theorem loads_agree_overfull :
    overfull ≠ [] ∧ overfullAndEmpty.read "p" = .ok overfull ∧ overfullAndEmpty.read "q" = .ok [] ∧
    (∃ p log, ofBytes overfull = (.ok p, log) ∧
      ofFile overfullAndEmpty "p" = .ok (.ok { p with file := "p" }, log) ∧
      checkFile overfullAndEmpty "p" = .ok (none, log) ∧
      ∀ m : Machine, (m.perform (.load p.image)).2 = .loaded 3584 ∧
        (m.perform (.load p.image)).1.state.ram.get 4095 = 7 ∧
        (m.perform (.load p.image)).1.state.ram.get 511 = m.state.ram.get 511) ∧
    checkFile overfullAndEmpty "q" = .ok (some "ROM is empty", []) := by
  have hsome : overfull ≠ [] := nofun
  have hfull : overfullAndEmpty.read "p" = .ok overfull := by decide +kernel
  have hempty : overfullAndEmpty.read "q" = .ok [] := by decide +kernel
  obtain ⟨hall, hfile⟩ := loads_agree
  obtain ⟨p, log, hprogram, hload, hread⟩ := hall overfull hsome
  have hfrom := hread overfullAndEmpty.read "p" hfull
  obtain ⟨-, hright, -⟩ := hfile overfullAndEmpty.read "p" overfull hfull
  obtain ⟨-, -, hwrong⟩ := hfile overfullAndEmpty.read "q" [] hempty
  refine ⟨hsome, hfull, hempty, ⟨p, log, hprogram, hfrom, (hright log).2 ⟨_, hfrom⟩, ?_⟩,
    (hwrong _ _).2 ⟨.empty, ?_, rfl⟩⟩
  · intro m
    obtain ⟨hsame, hcount, ram, hmachine, hinside, houtside⟩ := hload m
    rw [hsame, hcount, hmachine]
    have hlength : min overfull.length 3584 = 3584 := by rw [overfull, List.length_replicate]; rfl
    have hlast := hinside 3583 4095 (by rw [hlength]; decide) rfl
    rw [overfull, List.getElem?_replicate_of_lt (by decide)] at hlast
    refine ⟨by rw [hlength], (Option.some.inj hlast).symm, houtside 511 ?_⟩
    exact fun h => absurd h.1 (by decide)
  · rw [hempty]
    rfl

end Program

end ChipEight
