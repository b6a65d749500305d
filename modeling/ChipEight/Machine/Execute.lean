import ChipEight.Machine.State

/-!
# Executing instructions

* `Outcome`             the state an instruction leaves, and either a fault or whether the screen
  has to be drawn anew;
* `State.exec s i b`    instruction `i` in state `s`; `b` is the random byte, should it want one;
* `Instruction.complaint`  what is logged about an instruction that means nothing.

A fault keeps what the instruction did before it: a store writes up to the end of memory, and a
load fills registers up to there. A sprite is read whole before anything is drawn, and the flag is
cleared before the first pixel.
-/

namespace ChipEight

structure Outcome where
  state : State
  result : Except Fault Bool

namespace State

/-- the instruction is done and the screen as it was -/
def done (s : State) : Outcome := ⟨s, .ok false⟩

/-- the instruction is done unless something failed on the way -/
def doneUnless (s : State) : Option Fault → Outcome
  | none => s.done
  | some f => ⟨s, .error f⟩

def doReturn (s : State) : Outcome :=
  if s.sp = 0 then ⟨s, .error (.stackUnderflow (some s.here))⟩
  else
    let top := s.sp - 1
    if h : top < 16 then { s with sp := top, pc := s.stack.get ⟨top, h⟩ }.done
    else ⟨{ s with sp := top }, .error .noStackEntry⟩

def doCall (s : State) (addr : Address) : Outcome :=
  if h : s.sp < 16 then
    { s with stack := s.stack.set s.sp s.pc, sp := s.sp + 1, pc := addr }.done
  else ⟨s, .error (.stackOverflow (some s.here))⟩

def decimalDigits (b : UInt8) : List UInt8 := [b / 100, b / 10 % 10, b % 10]

/-- bytes written from the index on -/
def doStore (s : State) (bytes : List UInt8) : Outcome :=
  let (ram, failed) := s.ram.putRun s.i.toNat bytes
  { s with ram }.doneUnless failed

/-- the registers that `bytes` covers take its values -/
def registersFrom (v : Registers) (bytes : List UInt8) : Registers :=
  Vector.ofFn fun x => (bytes[x.val]?).getD (v.get x)

/-- the first `n` registers read from the index on -/
def doLoad (s : State) (n : Nat) : Outcome :=
  let (bytes, failed) := s.ram.readRun s.i.toNat n
  { s with v := registersFrom s.v bytes }.doneUnless failed

/-- what was drawn, and the flag that tells whether it turned a pixel off -/
def withDrawing (s : State) (d : Drawing) : State :=
  { s with screen := d.screen }.withV flag (if d.hit then 1 else 0)

/-- a sprite of `n` rows drawn at the place that two registers give -/
def doDraw (s : State) (x y : Register) (n : Nat) : Outcome :=
  match s.ram.readRun s.i.toNat n with
  | (_, some f) => ⟨s, .error f⟩
  | (sprite, none) =>
    let left := (s.v.get x).toNat % 64
    let top := (s.v.get y).toNat % 32
    match Drawing.rows ⟨s.screen, false⟩ left top n sprite with
    | .ok d => ⟨s.withDrawing d, .ok true⟩
    | .error (f, d) => ⟨s.withDrawing d, .error f⟩

open Instruction in
def exec (s : State) (i : Instruction) (roll : UInt8) : Outcome :=
  let v (x : Register) : UInt8 := s.v.get x
  match i with
  | clear => ⟨{ s with screen := .blank }, .ok true⟩
  | ret => s.doReturn
  | jump a => { s with pc := a }.done
  | jumpFrom a => { s with pc := a + (v first).toNat }.done
  | call a => s.doCall a
  | skipIfByte x b => (s.skipIf (v x == b)).done
  | skipUnlessByte x b => (s.skipIf (v x != b)).done
  | skipIfEqual x y => (s.skipIf (v x == v y)).done
  | skipUnlessEqual x y => (s.skipIf (v x != v y)).done
  | skipIfPressed x => (s.skipIf (s.keypad.isDown (v x).toNat)).done
  | skipUnlessPressed x => (s.skipIf (!s.keypad.isDown (v x).toNat)).done
  | loadByte x b => (s.withV x b).done
  | addByte x b => (s.withV x (v x + b)).done
  | copy x y => (s.withV x (v y)).done
  | .or x y => (s.withV x (v x ||| v y)).done
  | .and x y => (s.withV x (v x &&& v y)).done
  | .xor x y => (s.withV x (v x ^^^ v y)).done
  | add x y => (s.withFlagged x (v x + v y) ((v x).toNat + (v y).toNat > 255)).done
  | sub x y => (s.withFlagged x (v x - v y) (v x ≥ v y)).done
  | subFrom x y => (s.withFlagged x (v y - v x) (v y ≥ v x)).done
  | shiftRight x => (s.withFlagged x (v x / 2) ((v x).toNat % 2 = 1)).done
  | shiftLeft x => (s.withFlagged x (v x + v x) (v x ≥ 128)).done
  | random x b => (s.withV x (roll &&& b)).done
  | loadIndex a => { s with i := .ofNat a }.done
  | addIndex x => { s with i := s.i + (v x).toUInt16 }.done
  | glyph x => { s with i := .ofNat (Font.locate (v x)) }.done
  | storeDecimal x => s.doStore (decimalDigits (v x))
  | store x => s.doStore (s.v.toList.take (x + 1))
  | load x => s.doLoad (x + 1)
  | readDelay x => (s.withV x s.delay).done
  | setDelay x => { s with delay := v x }.done
  | setSound x => { s with sound := v x }.done
  | awaitKey x => (s.waitFor x).done
  | draw x y n => s.doDraw x y n
  | unknown _ => s.done

end State

/-- the entry about an unknown word that was fetched from address `here` -/
def Instruction.complaint (here : Nat) : Instruction → List LogEntry
  | .unknown w =>
    [.error ("Unknown OpCode: $" ++ State.word w.toNat ++ " at PC=$" ++ State.word here)]
  | _ => []

end ChipEight
