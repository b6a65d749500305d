import ChipEight.Files.Tree
import ChipEight.Machine.Console
import ChipEight.Machine.SaveFile
import ChipEight.Session.Stopwatch

/-!
# Sessions

* `Ticket`       a saved state that the host asked for: still open, called off, or answered. A
  ticket that was called off is noticed once, by the first request that is heard with it;
* `Tickets`      the tickets by their numbers;
* `Session`      a console with its end of the link, its clock and cadences, and what it reports;
* `Session.start`  a session that runs, its timer started;
* `Session.say`  log entries;
* `Session.report`  one that the log may refuse.

A session keeps the entries it logged and the events that were recorded, oldest first, until
someone takes them. Only the names of files can hold what the log cannot write down, so no other
entry is ever refused.
-/

namespace ChipEight

inductive Ticket where
  | pending
  /-- being answered; it stays so if the answer could not be made -/
  | running
  | cancelled
  /-- called off, and a request with it was heard -/
  | notified
  | answered (bytes : List UInt8)
  /-- settled by someone else beforehand -/
  | spent
  deriving DecidableEq, Repr

abbrev Tickets := List (Nat × Ticket)

namespace Tickets

def get? (ts : Tickets) (n : Nat) : Option Ticket := ts.lookup n

def set (ts : Tickets) (n : Nat) (t : Ticket) : Tickets := (n, t) :: ts.filter (·.1 != n)

theorem get?_set (ts : Tickets) (n : Nat) (t : Ticket) : (ts.set n t).get? n = some t := by
  rw [get?, set, List.lookup_cons_self]

/-- calls a ticket off that nobody has begun to answer -/
def cancel (ts : Tickets) (n : Nat) : Tickets :=
  match ts.get? n with
  | some .pending => ts.set n .cancelled
  | _ => ts

end Tickets

structure Session (κ τ : Type) where
  console : Console
  link : Link Message
  clock : κ
  timer : Stopwatch τ
  /-- the least time between the beginnings of two instructions; without one there is no wait -/
  tickInterval : Option τ
  /-- the least time between two ticks of the timers -/
  timerInterval : τ
  running : Bool
  fault : Option SessionFault
  tickets : Tickets
  files : Files
  log : List LogEntry
  /-- what it raises to log an entry with the name of a file, if the log does not take it -/
  refuses : LogEntry → Option Escape
  events : List Event

namespace Session

variable {κ τ : Type} [Time τ] [Clock κ τ]

/-- the cadences of a session that is told none: 2 ms and 60 Hz -/
def defaultTick : Float := 0.002

def defaultHz : Float := 60.0

/-- the clock is read once, for the timer; the log takes every entry, as names are Unicode text -/
def start (c : Console) (link : Link Message) (clock : κ) (tickInterval : Option τ)
    (timerInterval : τ) (files : Files) : Session κ τ :=
  let (timer, clock) := Stopwatch.fresh.startBy clock
  { console := c.subscribe "draw" .post
    link, clock, timer, tickInterval, timerInterval
    running := true
    fault := none
    tickets := []
    files
    log := []
    refuses := fun _ => none
    events := [] }

section
omit [Time τ] [Clock κ τ]

def machine (s : Session κ τ) : Machine := s.console.machine

def paused (s : Session κ τ) : Bool := s.machine.paused

def say (s : Session κ τ) (es : List LogEntry) : Session κ τ := { s with log := s.log ++ es }

def LogsAll (s : Session κ τ) : Prop := ∀ e, s.refuses e = none

/-- logs an entry that the log may refuse -/
def report (s : Session κ τ) (e : LogEntry) : Session κ τ × Option Escape :=
  match s.refuses e with
  | none => (s.say [e], none)
  | some why => (s, some why)

def mapMachine (s : Session κ τ) (f : Machine → Machine) : Session κ τ :=
  { s with console := s.console.mapMachine f }

/-- the console's part of the session after an operation of the console -/
def absorb (s : Session κ τ) (r : Showing) : Session κ τ :=
  { s with
    console := r.console
    link := s.link.setOutbound .session r.outbox
    log := s.log ++ r.log
    events := s.events ++ r.events }

def act (s : Session κ τ) (f : Console → Pipe Message → Showing) :
    Session κ τ × Except Escape Bool :=
  let r := f s.console (s.link.outbound .session)
  (s.absorb r, r.result)

def issue (s : Session κ τ) (t : Ticket) : Nat × Session κ τ :=
  (s.tickets.length, { s with tickets := (s.tickets.length, t) :: s.tickets })

def takeReports (s : Session κ τ) : (List LogEntry × List Event) × Session κ τ :=
  ((s.log, s.events), { s with log := [], events := [] })

def description (s : Session κ τ) : String :=
  let bool (b : Bool) := if b then "True" else "False"
  "<Scheduler running=" ++ bool s.running ++ " paused=" ++ bool s.paused
    ++ " fault=" ++ (match s.fault with | some f => f.description | none => "None") ++ ">"

end

end Session

end ChipEight
