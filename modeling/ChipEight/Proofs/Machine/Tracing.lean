import ChipEight.Proofs.Machine.Due
import ChipEight.Proofs.Machine.Resume
import ChipEight.Proofs.Machine.Watched

/-!
# Traced machines

Tracing is only ever written: a traced machine does what an untraced one does, and hands back and
announces the same.  What is written is one line for every instruction that was fetched.

* `State.traceLine? s`     the line that a tick of state `s` adds, if it fetches an instruction;
* `Trace.newest l`         the lines of `l` that a trace has room for;
* `Machine.untraced m`     the machine without its trace;
* `untraced_perform`       an operation does the same to it, and so does a call to its console;
* `Console.lines`          all lines that the calls add to a trace;
* `trace_after`            the trace holds the newest of them;
* `tracing_unnoticed`      the two together, for every console and all calls.
-/

namespace ChipEight

/-! ## lines -/

/-- the line about an instruction that is to be executed: the address it was fetched from, its word
and its listing, and the index, the stack pointer and the timers before it -/
def State.traceLine (s : State) : String :=
  word s.pc ++ ": opcode: " ++ word s.opcode
    ++ " | " ++ Fetched.column 16 (Instruction.decode s.opcode).listing
    ++ " | I: " ++ word s.i.toNat
    ++ " | SP: " ++ String.ofList (Hex.padded 1 s.sp)
    ++ " | DT: " ++ String.ofList (Hex.padded 2 s.delay.toNat)
    ++ " | ST: " ++ String.ofList (Hex.padded 2 s.sound.toNat)

/-- the line that a tick adds: none for a machine that waits, nor for a word outside memory -/
def State.traceLine? (s : State) : Option String :=
  if s.mode = .running ∧ s.pc < 4095 then some s.traceLine else none

namespace State

theorem line_entered {s : State} (h : s.pc < 4095) :
    (s.entered.fetched s.opcode).line = s.traceLine := by
  have haddress : (s.entered.fetched s.opcode).address = s.pc := here_entered h
  rw [Fetched.line, haddress]
  rfl

example : Fetched.line ⟨0x200, 0x6A2F, .decode 0x6A2F, 0, 0, 0, 0⟩ =
    "0200: opcode: 6A2F | LD VA, 0x2F      | I: 0000 | SP: 0 | DT: 00 | ST: 00" := by
  decide +kernel

theorem line_step (s : State) (roll : UInt8) :
    (s.step roll).fetched.map Fetched.line = s.traceLine? := by
  unfold traceLine?
  cases hm : s.mode with
  | running =>
    by_cases hpc : s.pc < 4095
    · rw [step_fetched roll hm hpc, if_pos ⟨rfl, hpc⟩]
      exact congrArg some (line_entered hpc)
    · rw [step_outside roll hm (Nat.not_lt.mp hpc), if_neg fun h => hpc h.2]
      rfl
  | awaitingKey =>
    rw [if_neg (by simp)]
    cases hr : s.released with
    | none => rw [step_waiting roll hm hr]; rfl
    | some k =>
      have hstep : s.step roll = answer { s with released := none } k := by
        simp [step, hm, hr]
      rw [hstep, fetched_answer]
      rfl

end State

namespace Trace

-- irreducible, or else a unifier that meets it counts `room` down
@[irreducible]
def newest (lines : List String) : Trace := lines.drop (lines.length - room)

theorem newest_nil : newest [] = [] := by
  unfold newest
  exact List.drop_nil

theorem newest_push (lines : List String) (line : String) :
    push (newest lines) line = newest (lines ++ [line]) := by
  unfold push newest
  generalize room = n
  have hle : lines.length - n ≤ lines.length := Nat.sub_le ..
  have hcut : lines.length - n + ((lines.drop (lines.length - n)).length + 1 - n) =
      (lines ++ [line]).length - n := by
    simp only [List.length_drop, List.length_append, List.length_singleton]
    omega
  rw [← List.drop_append_of_le_length hle, List.drop_drop, hcut]

theorem newest_foldl (lines more : List String) :
    more.foldl push (newest lines) = newest (lines ++ more) := by
  induction more generalizing lines with
  | nil => simp
  | cons line more ih => simp [newest_push, ih]

theorem length_newest (lines : List String) :
    (newest lines).length = min room lines.length := by
  unfold newest
  generalize room = n
  rw [List.length_drop]
  omega

end Trace

namespace Machine

/-! ## the same machine without its trace -/

def untraced (m : Machine) : Machine := { m with tracing := false, trace := [] }

theorem untraced_tick (m : Machine) :
    m.untraced.tick.machine = m.tick.machine.untraced ∧ m.untraced.tick.result = m.tick.result := by
  unfold tick untraced
  dsimp only
  cases (m.state.step m.dice.next).fetched with
  | none => exact ⟨rfl, rfl⟩
  | some f => cases ht : m.tracing <;> simp [note, ht]

theorem untraced_restore (bytes : List UInt8) (dice : Dice) (tracing : Bool) :
    (restore bytes dice false).toOption = (restore bytes dice tracing).toOption.map untraced := by
  unfold restore
  cases State.decode bytes <;> rfl

theorem untraced_reload (m : Machine) : m.untraced.reload = m.reload.map untraced := by
  show (m.snapshot.toOption.bind fun bytes => _) = (m.snapshot.toOption.bind fun bytes => _).map _
  cases m.snapshot.toOption with
  | none => rfl
  | some bytes => exact untraced_restore bytes m.dice m.tracing

theorem untraced_perform (m : Machine) (o : Op) :
    m.untraced.perform o = ((m.perform o).1.untraced, (m.perform o).2) := by
  cases o with
  | tick =>
    obtain ⟨hmachine, hresult⟩ := untraced_tick m
    simp only [perform, hmachine, hresult]
  | reload =>
    simp only [perform, untraced_reload]
    cases m.reload <;> rfl
  | release k =>
    have hrelease : m.untraced.release k = (m.release k).untraced := by
      unfold release untraced
      split <;> rfl
    exact congrArg (·, Answer.done) hrelease
  | _ => rfl

/-! ## the trace -/

theorem added_tick {m : Machine} (h : m.tracing = true) :
    m.added .tick = m.state.traceLine?.toList := by
  rw [added, if_pos h, State.line_step]

theorem trace_perform {o : Op} (ho : o ≠ .reload) (m : Machine) :
    (m.perform o).1.trace = (m.added o).foldl Trace.push m.trace :=
  congrArg (fun r => r.1.trace) (perform_withTrace ho m m.trace)

theorem tracing_mapState (m : Machine) (f : State → State) : (m.mapState f).tracing = m.tracing :=
  rfl

theorem tracing_note (m : Machine) (f : Fetched) : (m.note f).1.tracing = m.tracing := by
  cases ht : m.tracing <;> simp [note, ht]

theorem tracing_tick (m : Machine) : m.tick.machine.tracing = m.tracing := by
  unfold tick
  dsimp only
  split
  · rfl
  · exact tracing_note m _

theorem tracing_perform {o : Op} (ho : o ≠ .reload) (m : Machine) :
    (m.perform o).1.tracing = m.tracing := by
  cases o with
  | tick => exact tracing_tick m
  | reload => exact absurd rfl ho
  | release k =>
    show (if m.paused then m else _).tracing = _
    split <;> rfl
  | load image => exact tracing_mapState m _
  | _ => rfl

theorem restore_new {bytes : List UInt8} {dice : Dice} {tracing : Bool} {r : Machine}
    (h : (restore bytes dice tracing).toOption = some r) : r.tracing = tracing ∧ r.trace = [] := by
  cases hr : restore bytes dice tracing with
  | error e => rw [hr] at h; cases h
  | ok m =>
    rw [hr] at h
    obtain ⟨s, -, rfl⟩ := restore_ok hr
    cases h
    exact ⟨rfl, rfl⟩

theorem reload_new {m r : Machine} (h : m.reload = some r) :
    r.tracing = m.tracing ∧ r.trace = [] := by
  obtain ⟨bytes, -, hbytes⟩ := Option.bind_eq_some_iff.mp h
  exact restore_new hbytes

end Machine

namespace Console

/-! ## the same without the trace -/

def untraced (c : Console) : Console := c.mapMachine Machine.untraced

def Outcome.untraced (o : Outcome) : Outcome := { o with console := o.console.untraced }

theorem untraced_restored (c : Console) (k : Call) :
    c.untraced.restored? k = (c.restored? k).map Machine.untraced := by
  cases k with
  | machine o =>
    cases o with
    | reload => exact c.machine.untraced_reload
    | _ => rfl
  | restore bytes => exact Machine.untraced_restore bytes c.machine.dice c.machine.tracing
  | _ => rfl

theorem untraced_replaced (c : Console) (out : Pipe Message) (r : Option Machine) :
    c.untraced.replaced out (r.map Machine.untraced) = (c.replaced out r).untraced := by
  cases r <;> rfl

theorem untraced_tick (c : Console) (out : Pipe Message) :
    Outcome.ofShowing (c.untraced.tick out) = (Outcome.ofShowing (c.tick out)).untraced := by
  obtain ⟨hmachine, hresult⟩ := c.machine.untraced_tick
  simp only [tick, untraced, mapMachine, hmachine, hresult]
  cases c.machine.tick.result with
  | error f => rfl
  | ok b => cases b <;> rfl

theorem untraced_perform (c : Console) (out : Pipe Message) (k : Call) :
    c.untraced.perform out k = (c.perform out k).untraced := by
  cases k with
  | exec i => rfl
  | subscribe name r => rfl
  | restore bytes => simp only [perform, untraced_restored, untraced_replaced]
  | machine o =>
    have hother : c.untraced.machine.perform o =
        ((c.machine.perform o).1.untraced, (c.machine.perform o).2) := c.machine.untraced_perform o
    cases o with
    | tick => exact untraced_tick c out
    | tick60 => rfl
    | reload => simp only [perform, untraced_restored, untraced_replaced]
    | _ => simp only [perform, mapMachine, hother]; rfl

theorem untraced_outcomes (c : Console) (out : Pipe Message) (calls : List Call) :
    c.untraced.outcomes out calls = (c.outcomes out calls).map Outcome.untraced := by
  induction calls generalizing c out with
  | nil => rfl
  | cons k calls ih =>
    rw [outcomes, outcomes, untraced_perform, List.map_cons, ← ih]
    rfl

/-! ## all lines -/

/-- the lines so far, with those that a call adds; a machine that was restored has none -/
def linesAfter (c : Console) (past : List String) : Call → List String
  | .machine .tick => past ++ c.machine.state.traceLine?.toList
  | k => if (c.restored? k).isSome then [] else past

def lines (c : Console) (out : Pipe Message) (past : List String) : List Call → List String
  | [] => past
  | k :: calls =>
    (c.perform out k).console.lines (c.perform out k).outbox (c.linesAfter past k) calls

/-- a traced machine whose trace holds the newest of some lines -/
structure Traces (c : Console) (past : List String) : Prop where
  tracing : c.machine.tracing = true
  trace : c.machine.trace = Trace.newest past

variable {c : Console} {past : List String}

theorem linesAfter_machine {o : Op} (ho : o ≠ .reload) (ht : c.machine.tracing = true)
    (past : List String) : c.linesAfter past (.machine o) = past ++ c.machine.added o := by
  cases o with
  | tick => rw [linesAfter, Machine.added_tick ht]
  | reload => exact absurd rfl ho
  | _ => exact (List.append_nil past).symm

theorem restored_new {k : Call} {r : Machine} (h : c.restored? k = some r) :
    r.tracing = c.machine.tracing ∧ r.trace = [] := by
  cases k with
  | machine o =>
    cases o with
    | reload => exact Machine.reload_new h
    | _ => cases h
  | restore bytes => exact Machine.restore_new h
  | _ => cases h

theorem Traces.replaced (h : c.Traces past) (out : Pipe Message) (k : Call) :
    (c.replaced out (c.restored? k)).console.Traces
      (if (c.restored? k).isSome then [] else past) := by
  cases hr : c.restored? k with
  | none => exact h
  | some r =>
    obtain ⟨hsame, hnew⟩ := restored_new hr
    exact ⟨hsame.trans h.tracing, hnew.trans Trace.newest_nil.symm⟩

theorem Traces.perform (h : c.Traces past) (out : Pipe Message) (k : Call) :
    (c.perform out k).console.Traces (c.linesAfter past k) := by
  cases k with
  | exec i => exact ⟨h.tracing, h.trace⟩
  | subscribe name r => exact ⟨h.tracing, h.trace⟩
  | restore bytes => exact h.replaced out (.restore bytes)
  | machine o =>
    by_cases ho : o = .reload
    · subst ho
      exact h.replaced out (.machine .reload)
    · refine ⟨?_, ?_⟩
      · rw [machine_perform ho, Machine.tracing_perform ho, h.tracing]
      · rw [machine_perform ho, Machine.trace_perform ho, h.trace, Trace.newest_foldl,
          linesAfter_machine ho h.tracing]

theorem trace_after (h : c.Traces past) (out : Pipe Message) (calls : List Call) :
    (c.after out calls).machine.trace = Trace.newest (c.lines out past calls) := by
  induction calls generalizing c out past with
  | nil => exact h.trace
  | cons k calls ih => exact ih (h.perform out k) _

/-- the console with tracing on or off, and the newest of some lines in the trace -/
def withTracing (c : Console) (tracing : Bool) (past : List String) : Console :=
  c.mapMachine fun m => { m with tracing, trace := Trace.newest past }

/-- a traced console and the same one untraced: each call hands back, announces and posts the same
and leaves the same machine, but for the trace; and the trace holds the newest of all lines, as many
of them as it has room for -/
theorem tracing_unnoticed (c : Console) (past : List String) (out : Pipe Message)
    (calls : List Call) :
    ((c.withTracing true past).outcomes out calls).map Outcome.untraced =
        ((c.withTracing false past).outcomes out calls).map Outcome.untraced ∧
      ((c.withTracing true past).after out calls).machine.trace =
        Trace.newest ((c.withTracing true past).lines out past calls) ∧
      ((c.withTracing true past).after out calls).machine.trace.length =
        min 2048 ((c.withTracing true past).lines out past calls).length := by
  have htraces : (c.withTracing true past).Traces past := ⟨rfl, rfl⟩
  have htrace := trace_after htraces out calls
  have hcalls : ((c.withTracing true past).outcomes out calls).map Outcome.untraced =
      ((c.withTracing false past).outcomes out calls).map Outcome.untraced := by
    rw [← untraced_outcomes, ← untraced_outcomes]
    rfl
  exact ⟨hcalls, htrace, by rw [htrace, Trace.length_newest]; rfl⟩

end Console

end ChipEight
