import ChipEight.Text.Hex

/-!
# Faults

* `Fault`              what stops an instruction: an address outside memory, a stack that is full
  or empty, or a place that is not there: on the stack, in a sprite, on the screen, or the register
  that waits for a key;
* `Fault.message f`    its wording;
* `Fault.ofProgram f`  the fault is the program's: a machine in good order meets no other;
* `WrongSize`          an image of a part of the machine that does not have the part's size.
-/

namespace ChipEight

inductive Fault where
  | outOfBounds (address : Int)
  | stackOverflow (pc : Option Int)
  | stackUnderflow (pc : Option Int)
  | noStackEntry
  | noSpriteRow
  | noPixel (x y : Int)
  | noWaitingRegister
  deriving DecidableEq, Repr

namespace Fault

def address (a : Int) : String := "$" ++ String.ofList (Hex.signed 4 a)

def place : Option Int → String
  | some pc => " at " ++ address pc
  | none => ""

/-- an index that is none of an axis of `size` places -/
def axis (index : Int) (axis size : Nat) : String :=
  "index " ++ toString index ++ " is out of bounds for axis " ++ toString axis ++ " with size "
    ++ toString size

def message : Fault → String
  | outOfBounds a => "Memory access out of bounds at " ++ address a
  | stackOverflow pc => "Stack overflow" ++ place pc
  | stackUnderflow pc => "Stack underflow" ++ place pc
  | noStackEntry => "list index out of range"
  | noSpriteRow => "list index out of range"
  | noPixel x y => if -32 ≤ y ∧ y < 32 then axis x 1 64 else axis y 0 32
  | noWaitingRegister => ""

def ofProgram : Fault → Bool
  | outOfBounds _ | stackOverflow _ | stackUnderflow _ => true
  | noStackEntry | noSpriteRow | noPixel _ _ | noWaitingRegister => false

end Fault

/-- the parts of a machine that are given as images -/
inductive Part where
  | memory | screen | keypad
  deriving DecidableEq, Repr

structure WrongSize where
  part : Part
  got : Nat
  deriving DecidableEq, Repr

def WrongSize.message (e : WrongSize) : String :=
  (match e.part with
    | .memory => "Memory image must be 4096 bytes, got "
    | .screen => "Frame buffer needs 2048 bits, got "
    | .keypad => "Key matrix needs 16 bits, got ") ++ toString e.got

end ChipEight
