import ChipEight.Instruction.Word
import ChipEight.Instruction.Listing
import ChipEight.Machine.Execute

/-!
# One instruction

* `Fetched`          an instruction that was fetched, with the registers a trace shows;
* `State.fetch s`    the word at the program counter, which moves past it;
* `State.step s b`   one tick: a waiting machine takes the pending key if there is one, any other
  fetches and executes an instruction;
* `Fetched.line`     the line of the trace.

The pending key is taken by every tick, whether an instruction waits for it or not.
-/

namespace ChipEight

structure Fetched where
  address : Nat
  word : Nat
  instruction : Instruction
  i : Nat
  sp : Nat
  delay : Nat
  sound : Nat

namespace Fetched

/-- text with blanks behind it up to `w` characters -/
def column (w : Nat) (cs : List Char) : String :=
  String.ofList (cs ++ List.replicate (w - cs.length) ' ')

def line (f : Fetched) : String :=
  State.word f.address ++ ": opcode: " ++ State.word f.word
    ++ " | " ++ column 16 f.instruction.listing
    ++ " | I: " ++ State.word f.i
    ++ " | SP: " ++ String.ofList (Hex.padded 1 f.sp)
    ++ " | DT: " ++ String.ofList (Hex.padded 2 f.delay)
    ++ " | ST: " ++ String.ofList (Hex.padded 2 f.sound)

end Fetched

structure Stepped where
  state : State
  result : Except Fault Bool
  fetched : Option Fetched

namespace State

/-- register `x` gets the key it waited for -/
def resume (s : State) (x : Register) (k : Key) : State :=
  { s.withV x (.ofNat k.val) with mode := .running, awaiting := none }

def answer (s : State) (k : Key) : Stepped :=
  match s.awaiting with
  | some x => ⟨s.resume x k, .ok false, none⟩
  | none => ⟨s, .error .noWaitingRegister, none⟩

/-- the two bytes at the program counter; the counter wraps at sixteen bits -/
def fetch (s : State) : Except Fault (State × Nat) := do
  let high ← s.ram.read s.pc
  let low ← s.ram.read (s.pc + 1)
  return ({ s with pc := (s.pc + 2) % 65536 }, high.toNat * 256 + low.toNat)

/-- what a trace shows of the state after the fetch -/
def fetched (s : State) (word : Nat) : Fetched where
  address := s.here
  word := word
  instruction := .decode word
  i := s.i.toNat
  sp := s.sp
  delay := s.delay.toNat
  sound := s.sound.toNat

/-- a tick of a machine that does not wait -/
def run1 (s : State) (roll : UInt8) : Stepped :=
  match s.fetch with
  | .error f => ⟨s, .error f, none⟩
  | .ok (s, word) =>
    let f := s.fetched word
    let o := s.exec f.instruction roll
    ⟨o.state, o.result, some f⟩

def step (s : State) (roll : UInt8) : Stepped :=
  let key := s.released
  let s := { s with released := none }
  match s.mode with
  | .awaitingKey =>
    match key with
    | some k => s.answer k
    | none => ⟨s, .ok false, none⟩
  | .running => s.run1 roll

/-! ### its three cases -/

theorem step_waiting {s : State} (roll : UInt8) (h : s.mode = .awaitingKey)
    (hr : s.released = none) : s.step roll = ⟨s, .ok false, none⟩ := by
  cases s; simp_all [step]

theorem step_answered {s : State} {x : Register} {k : Key} (roll : UInt8)
    (h : s.mode = .awaitingKey) (hx : s.awaiting = some x) (hr : s.released = some k) :
    s.step roll = ⟨{ s with released := none }.resume x k, .ok false, none⟩ := by
  simp [step, answer, h, hx, hr]

theorem step_running {s : State} (roll : UInt8) (h : s.mode = .running) :
    s.step roll = { s with released := none }.run1 roll := by
  simp [step, h]

end State

end ChipEight
