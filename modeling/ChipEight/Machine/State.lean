import ChipEight.Instruction.Basic
import ChipEight.Machine.Ram
import ChipEight.Machine.Sprite
import ChipEight.Machine.Keypad

/-!
# The state of the machine

* `Mode`           whether instructions run or one of them waits for a key;
* `State`          registers, stack, timers, memory, screen and keypad; a pending released key, and
  the register that waits for one;
* `State.fresh`    the state before the first instruction: the font in memory, all else zero;
* `State.tick60`   the timers count down to zero.

The program counter and the stack are not bound to sixteen bits: a skip at the end of the address
range leaves a counter beyond it, which the next fetch refuses.
-/

namespace ChipEight

abbrev Registers := Vector UInt8 16

inductive Mode where
  | running
  | awaitingKey
  deriving DecidableEq, Repr

def Mode.name : Mode → String
  | running => "Running"
  | awaitingKey => "AwaitingKey"

structure State where
  v : Registers
  i : UInt16
  pc : Nat
  sp : Nat
  delay : UInt8
  sound : UInt8
  stack : Vector Nat 16
  ram : Ram
  screen : Screen
  keypad : Keypad
  mode : Mode
  awaiting : Option Register
  /-- the key released last, until an instruction takes it -/
  released : Option Key

namespace State

def fresh : State where
  v := Vector.replicate 16 0
  i := 0
  pc := programStart
  sp := 0
  delay := 0
  sound := 0
  stack := Vector.replicate 16 0
  ram := .fresh
  screen := .blank
  keypad := .none
  mode := .running
  awaiting := none
  released := none

def withV (s : State) (x : Register) (b : UInt8) : State := { s with v := s.v.set x.val b }

theorem get_withV (s : State) (x z : Register) (b : UInt8) :
    (s.withV x b).v.get z = if z = x then b else s.v.get z := by
  show (s.v.set x.val b)[z.val] = if z = x then b else s.v[z.val]
  rw [Vector.getElem_set]
  by_cases h : z = x
  · rw [if_pos h, if_pos (congrArg Fin.val h.symm)]
  · rw [if_neg h, if_neg (fun hval => h (Fin.ext hval.symm))]

def first : Register := 0

def flag : Register := 15

/-- a result in a register, then a flag in the flag register -/
def withFlagged (s : State) (x : Register) (b : UInt8) (f : Bool) : State :=
  (s.withV x b).withV flag (if f then 1 else 0)

/-- the next instruction is skipped on a condition -/
def skipIf (s : State) (c : Bool) : State := if c then { s with pc := s.pc + 2 } else s

/-- from now on register `x` waits for a key -/
def waitFor (s : State) (x : Register) : State := { s with mode := .awaitingKey, awaiting := some x }

def here (s : State) : Nat := (s.pc + 65534) % 65536

def tick60 (s : State) : State :=
  { s with
    delay := if s.delay > 0 then s.delay - 1 else s.delay
    sound := if s.sound > 0 then s.sound - 1 else s.sound }

def word (n : Nat) : String := String.ofList (Hex.padded 4 n)

def description (s : State) : String :=
  "<Cpu PC=$" ++ word s.pc ++ " I=$" ++ word s.i.toNat ++ " SP=" ++ toString s.sp
    ++ " DT=" ++ toString s.delay.toNat ++ " ST=" ++ toString s.sound.toNat
    ++ " state=" ++ s.mode.name ++ ">"

end State

end ChipEight
