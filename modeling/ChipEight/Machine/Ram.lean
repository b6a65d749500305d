import ChipEight.Log
import ChipEight.Machine.Fault
import ChipEight.Machine.Font

/-!
# Memory

* `Ram`                 the 4096 bytes of the address space;
* `Ram.fresh`           the font, and zeros around it;
* `Ram.read`, `put`     one byte at an address, a fault outside the address space;
* `Ram.write`           the same as `put`, of an integer's lowest eight bits;
* `Ram.readRun`         the bytes from an address on, up to the first one outside;
* `Ram.putRun`          writes bytes from an address on, up to the first one outside;
* `Ram.load`            a program copied to `programStart`, what does not fit left out;
* `Ram.ofBytes`         the memory given by exactly 4096 bytes.
-/

namespace ChipEight

abbrev Ram := Vector UInt8 4096

def programStart : Nat := 0x200

theorem programStart_lt : programStart < 4096 := by decide
theorem programStart_succ_lt : programStart + 1 < 4096 := by decide

def programRoom : Nat := 3584

namespace Ram

/-- `bytes` laid over `r` from address `start` on -/
def overlay (r : Ram) (start : Nat) (bytes : Array UInt8) : Ram :=
  Vector.ofFn fun a =>
    if start ≤ a.val then (bytes[a.val - start]?).getD (r.get a) else r.get a

def zeros : Ram := Vector.replicate 4096 0

def fresh : Ram := zeros.overlay Font.start Font.glyphs.toArray

def read (r : Ram) : Int → Except Fault UInt8
  | .ofNat a => if h : a < 4096 then .ok (r.get ⟨a, h⟩) else .error (.outOfBounds a)
  | .negSucc a => .error (.outOfBounds (.negSucc a))

def put (r : Ram) (a : Int) (b : UInt8) : Except Fault Ram :=
  match a with
  | .ofNat a => if h : a < 4096 then .ok (r.set a b) else .error (.outOfBounds a)
  | .negSucc a => .error (.outOfBounds (.negSucc a))

def write (r : Ram) (a b : Int) : Except Fault Ram := r.put a (.ofNat (b % 256).toNat)

theorem get_overlay (r : Ram) (start : Nat) (bytes : Array UInt8) (a : Fin 4096) :
    (r.overlay start bytes).get a =
      if start ≤ a.val then (bytes[a.val - start]?).getD (r.get a) else r.get a := by
  change (r.overlay start bytes)[a.val] = _
  simp [overlay]

theorem read_of_lt (r : Ram) {a : Nat} (h : a < 4096) : r.read a = .ok (r.get ⟨a, h⟩) := dif_pos h
theorem put_of_lt (r : Ram) {a : Nat} (h : a < 4096) (b : UInt8) :
    r.put a b = .ok (r.set a b) := dif_pos h
theorem read_outside (r : Ram) {a : Nat} (h : ¬a < 4096) :
    r.read a = .error (.outOfBounds a) := dif_neg h
theorem put_outside (r : Ram) {a : Nat} (h : ¬a < 4096) (b : UInt8) :
    r.put a b = .error (.outOfBounds a) := dif_neg h

/-- the bytes at `a`, `a + 1`, …, `n` of them unless an address lies outside -/
def readRun (r : Ram) (a : Nat) : Nat → List UInt8 × Option Fault
  | 0 => ([], none)
  | n + 1 =>
    match r.read a with
    | .ok b => let (bs, f) := r.readRun (a + 1) n; (b :: bs, f)
    | .error f => ([], some f)

/-- the bytes are written in order; those before the first address outside stay written -/
def putRun (r : Ram) (a : Nat) : List UInt8 → Ram × Option Fault
  | [] => (r, none)
  | b :: bs =>
    match r.put a b with
    | .ok r => r.putRun (a + 1) bs
    | .error f => (r, some f)

theorem readRun_succ (r : Ram) {a : Nat} (h : a < 4096) (n : Nat) :
    r.readRun a (n + 1) = (r.get ⟨a, h⟩ :: (r.readRun (a + 1) n).1, (r.readRun (a + 1) n).2) := by
  rw [readRun, read_of_lt r h]
theorem readRun_outside (r : Ram) {a : Nat} (h : ¬a < 4096) (n : Nat) :
    r.readRun a (n + 1) = ([], some (.outOfBounds a)) := by
  rw [readRun, read_outside r h]
theorem putRun_nil (r : Ram) (a : Nat) : r.putRun a [] = (r, none) := rfl
theorem putRun_cons (r : Ram) {a : Nat} (h : a < 4096) (b : UInt8) (bs : List UInt8) :
    r.putRun a (b :: bs) = Ram.putRun (r.set a b) (a + 1) bs := by
  rw [putRun, put_of_lt r h]
theorem putRun_outside (r : Ram) {a : Nat} (h : ¬a < 4096) (b : UInt8) (bs : List UInt8) :
    r.putRun a (b :: bs) = (r, some (.outOfBounds a)) := by
  rw [putRun, put_outside r h]

/-- what is said about a program that is too long -/
def overlong (size : Nat) : List LogEntry :=
  if size > programRoom then
    [.warning ("ROM is " ++ toString size ++ " bytes, extra " ++ toString (size - programRoom)
      ++ " bytes ignored")]
  else []

def load (r : Ram) (image : List UInt8) : Ram :=
  r.overlay programStart (image.take programRoom).toArray

def loaded (image : List UInt8) : Nat := min image.length programRoom

def ofBytes (bytes : List UInt8) : Except WrongSize Ram :=
  if h : bytes.length = 4096 then .ok ⟨bytes.toArray, by simpa using h⟩
  else .error ⟨.memory, bytes.length⟩

def description : String := "<Memory size=4096 rom_start=$200>"

end Ram

end ChipEight
