import ChipEight.Machine.Step

/-!
# The machine

* `Dice`            random bytes, and how many of them were drawn;
* `Trace`           the last lines of a trace;
* `Machine`         a state with its dice, paused or not, traced or not;
* `Machine.tick`    one instruction, with what it logs;
* `Machine.tick60`  the timers count down;
* `Machine.release` a key was released, which a paused machine does not notice.

Tracing only writes: a traced machine and an untraced one do the same.
-/

namespace ChipEight

/-! ## random bytes -/

structure Dice where
  byteAt : Nat → UInt8
  drawn : Nat

def Dice.next (d : Dice) : UInt8 := d.byteAt d.drawn

def Dice.after (d : Dice) (i : Instruction) : Dice :=
  if i.rolls then { d with drawn := d.drawn + 1 } else d

/-- `bytes` over and over again; zeros if there are none -/
def Dice.cycle (bytes : Array UInt8) : Dice := ⟨fun k => (bytes[k % bytes.size]?).getD 0, 0⟩

/-! ## traces -/

abbrev Trace := List String

def Trace.room : Nat := 2048

def Trace.push (t : Trace) (line : String) : Trace :=
  (t ++ [line]).drop (t.length + 1 - Trace.room)

/-! ## machines -/

structure Machine where
  state : State
  dice : Dice
  paused : Bool
  tracing : Bool
  trace : Trace

/-- what an operation did to a machine, whether it failed, and what it logged -/
structure Ticked where
  machine : Machine
  result : Except Fault Bool
  log : List LogEntry

namespace Machine

def ofState (s : State) (dice : Dice) (tracing : Bool) : Machine := ⟨s, dice, false, tracing, []⟩

def fresh (dice : Dice) (tracing : Bool) : Machine := ofState .fresh dice tracing

def mapState (m : Machine) (f : State → State) : Machine := { m with state := f m.state }

def load (m : Machine) (image : List UInt8) : Machine :=
  m.mapState fun s => { s with ram := s.ram.load image }

def press (m : Machine) (n : Int) : Machine :=
  m.mapState fun s => { s with keypad := s.keypad.press n }

def lift (m : Machine) (n : Int) : Machine :=
  m.mapState fun s => { s with keypad := s.keypad.release n }

def pause (m : Machine) : Machine := { m with paused := true }

def unpause (m : Machine) : Machine := { m with paused := false }

/-- the release of a key is noted for an instruction that waits for one -/
def release (m : Machine) (k : Key) : Machine :=
  if m.paused then m else m.mapState fun s => { s with released := some k }

def takeReleased (m : Machine) : Option Key × Machine :=
  (m.state.released, m.mapState fun s => { s with released := none })

/-- an instruction was fetched: its line is traced, and the dice move on -/
def note (m : Machine) (f : Fetched) : Machine × List LogEntry :=
  let m := { m with dice := m.dice.after f.instruction }
  if m.tracing then
    let line := f.line
    ({ m with trace := m.trace.push line }, [.debug line])
  else (m, [])

def tick (m : Machine) : Ticked :=
  let t := m.state.step m.dice.next
  match t.fetched with
  | none => ⟨{ m with state := t.state }, t.result, []⟩
  | some f =>
    let (m, log) := m.note f
    ⟨{ m with state := t.state }, t.result, log ++ f.instruction.complaint f.address⟩

/-- an instruction out of turn, without a fetch -/
def exec (m : Machine) (i : Instruction) : Ticked :=
  let o := m.state.exec i m.dice.next
  ⟨{ m with state := o.state, dice := m.dice.after i }, o.result, i.complaint m.state.here⟩

def tick60 (m : Machine) : Machine := m.mapState State.tick60

def description (m : Machine) : String :=
  "<Chip8 " ++ m.state.description ++ " paused=" ++ (if m.paused then "True" else "False") ++ ">"

end Machine

end ChipEight
