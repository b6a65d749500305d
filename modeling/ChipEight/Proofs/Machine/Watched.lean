import ChipEight.Machine.Console
import ChipEight.Proofs.Machine.Operations

/-!
# What is done to a machine that is watched

* `Console.Call`       an operation of the machine, an instruction out of turn, a restored state, or
                       a subscription;
* `Console.Outcome`    what comes of it: events, messages, and what is handed back;
* `Console.perform`    one call;
* `outcomes`, `after`  many of them, in any order: what came of each, and the console at the end;
* `machine_perform`    the machine does what it does when nobody watches.

A machine that was restored is a new one, which nobody watches yet.
-/

namespace ChipEight.Console

inductive Call where
  | machine (o : Op)
  | exec (i : Instruction)
  /-- the machine goes on as one restored from some bytes, if they are a saved state -/
  | restore (bytes : List UInt8)
  | subscribe (name : String) (r : Reaction)

inductive Reply where
  | answer (a : Answer)
  | result (r : Except Escape Bool)

structure Outcome where
  console : Console
  outbox : Pipe Message
  events : List Event
  reply : Reply

def Outcome.ofShowing (s : Showing) : Outcome := ⟨s.console, s.outbox, s.events, .result s.result⟩

/-- the machine that was restored in the place of the one there is, if there is one -/
def replaced (c : Console) (out : Pipe Message) : Option Machine → Outcome
  | some m => ⟨ofMachine m, out, [], .answer (.reloaded true)⟩
  | none => ⟨c, out, [], .answer (.reloaded false)⟩

/-- the machine that a call restores, from its own saved state or from bytes -/
def restored? (c : Console) : Call → Option Machine
  | .machine .reload => c.machine.reload
  | .restore bytes => (Machine.restore bytes c.machine.dice c.machine.tracing).toOption
  | _ => none

def perform (c : Console) (out : Pipe Message) : Call → Outcome
  | .machine .tick => .ofShowing (c.tick out)
  | .machine .tick60 => .ofShowing (c.tick60 out)
  | .machine .reload => c.replaced out (c.restored? (.machine .reload))
  | .machine o =>
    ⟨c.mapMachine fun m => (m.perform o).1, out, [], .answer (c.machine.perform o).2⟩
  | .restore bytes => c.replaced out (c.restored? (.restore bytes))
  | .exec i => .ofShowing (c.exec out i)
  | .subscribe name r => ⟨c.subscribe name r, out, [], .answer .done⟩

def outcomes (c : Console) (out : Pipe Message) : List Call → List Outcome
  | [] => []
  | k :: calls =>
    c.perform out k :: (c.perform out k).console.outcomes (c.perform out k).outbox calls

def after (c : Console) (out : Pipe Message) : List Call → Console
  | [] => c
  | k :: calls => (c.perform out k).console.after (c.perform out k).outbox calls

/-! ## the machine -/

theorem machine_tick (c : Console) (out : Pipe Message) :
    (c.tick out).console.machine = c.machine.tick.machine := by
  unfold tick
  dsimp only
  split <;> rfl

theorem machine_perform {o : Op} (ho : o ≠ .reload) (c : Console) (out : Pipe Message) :
    (c.perform out (.machine o)).console.machine = (c.machine.perform o).1 := by
  cases o with
  | tick => exact machine_tick c out
  | reload => exact absurd rfl ho
  | _ => rfl

end ChipEight.Console
