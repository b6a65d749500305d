import ChipEight.Channel.Message

/-!
# Machines that are watched

* `Event`            what a machine announces: a picture to draw, the timers after their tick;
* `Reaction`         what a watcher does: record the event, post it to the host, or refuse it;
* `Console`          a machine with its watchers, in the order of their subscription;
* `Showing`          what an operation of a console did: events recorded, messages posted;
* `Console.tick`, `tick60`   the machine's, with the announcement.

Watchers are told in order. One that refuses, or cannot post, ends the announcement; the machine
and the watchers before it are done by then.
-/

namespace ChipEight

inductive Event where
  | draw
  | timers (delay sound : UInt8)
  deriving DecidableEq, Repr

def Event.name : Event → String
  | draw => "draw"
  | timers _ _ => "timer"

inductive Reaction where
  | record
  | post
  | refuse (what : String)
  deriving DecidableEq, Repr

structure Console where
  machine : Machine
  watchers : List (String × Reaction)

structure Showing where
  console : Console
  outbox : Pipe Message
  events : List Event
  log : List LogEntry
  result : Except Escape Bool

/-- what came of telling watchers of an event -/
structure Announcement where
  events : List Event
  outbox : Pipe Message
  failure : Option Escape

def announce (e : Event) (out : Pipe Message) : List Reaction → Announcement
  | [] => ⟨[], out, none⟩
  | .record :: rs =>
    let a := announce e out rs
    { a with events := e :: a.events }
  | .post :: rs =>
    match out.send .draw with
    | .ok out => announce e out rs
    | .error _ => ⟨[], out, some (.cause .disconnected)⟩
  | .refuse what :: _ => ⟨[], out, some (.fault ⟨.notCallable what⟩)⟩

theorem announce_nil (e : Event) (out : Pipe Message) : announce e out [] = ⟨[], out, none⟩ := rfl

namespace Console

def ofMachine (m : Machine) : Console := ⟨m, []⟩

def subscribe (c : Console) (name : String) (r : Reaction) : Console :=
  { c with watchers := c.watchers ++ [(name, r)] }

/-- a console whose events are all recorded -/
def recording (m : Machine) : Console :=
  ((ofMachine m).subscribe "draw" .record).subscribe "timer" .record

def watching (c : Console) (e : Event) : List Reaction :=
  (c.watchers.filter (·.1 == e.name)).map (·.2)

/-- an operation of the machine that announces nothing -/
def mapMachine (c : Console) (f : Machine → Machine) : Console := { c with machine := f c.machine }

/-- the event is announced after an operation that gave `value` -/
def tell (c : Console) (out : Pipe Message) (log : List LogEntry) (e : Event) (value : Bool) :
    Showing :=
  let a := announce e out (c.watching e)
  ⟨c, a.outbox, a.events, log, match a.failure with | some f => .error f | none => .ok value⟩

def tick (c : Console) (out : Pipe Message) : Showing :=
  let t := c.machine.tick
  let c := { c with machine := t.machine }
  match t.result with
  | .error f => ⟨c, out, [], t.log, .error (.cause (.fault f))⟩
  | .ok false => ⟨c, out, [], t.log, .ok false⟩
  | .ok true => c.tell out t.log .draw true

/-- the timers count down, which is announced -/
def tick60 (c : Console) (out : Pipe Message) : Showing :=
  let c := c.mapMachine Machine.tick60
  c.tell out [] (.timers c.machine.state.delay c.machine.state.sound) false

def exec (c : Console) (out : Pipe Message) (i : Instruction) : Showing :=
  let t := c.machine.exec i
  ⟨{ c with machine := t.machine }, out, [], t.log, t.result.mapError fun f => .cause (.fault f)⟩

/-! ## many at once -/

/-- how many operations were done, and how many of them gave `true` -/
structure Tally where
  done : Nat
  yes : Nat

/-- an operation after a showing; the events and entries of both are kept -/
def Showing.andThen (s : Showing) (f : Console → Pipe Message → Showing) : Showing :=
  let t := f s.console s.outbox
  { t with events := s.events ++ t.events, log := s.log ++ t.log }

/-- the operation `f` up to `n` times, until one breaks off -/
def repeated (f : Console → Pipe Message → Showing) : Nat → Showing → Tally → Showing × Tally
  | 0, s, t => (s, t)
  | n + 1, s, t =>
    let s := Showing.andThen s f
    match s.result with
    | .error _ => (s, t)
    | .ok b => repeated f n s ⟨t.done + 1, if b then t.yes + 1 else t.yes⟩

/-- nothing has happened yet -/
def still (c : Console) (out : Pipe Message) : Showing := ⟨c, out, [], [], .ok false⟩

def ticks (c : Console) (out : Pipe Message) (n : Nat) : Showing × Tally :=
  repeated tick n (c.still out) ⟨0, 0⟩

def ticks60 (c : Console) (out : Pipe Message) (n : Nat) : Showing :=
  (repeated tick60 n (c.still out) ⟨0, 0⟩).1

end Console

end ChipEight
