import ChipEight.Session.Iteration

/-!
# Runs

* `Phase`            where a run stands: before an iteration, or waiting since a time;
* `RunError`         why a run broke off;
* `Session.turn`     one iteration, or one look at the clock while waiting;
* `Session.finish`   what every run ends with: snapshots that were not taken are called off, and
  the session's end is closed;
* `Session.run n`    a whole run of at most `n` turns; `none` if it goes on after them.

An iteration that was not paused is followed by a wait, until the tick interval has passed since
its beginning. A session without such an interval breaks off at its first wait.
-/

namespace ChipEight

inductive Phase (τ : Type) where
  | next
  | waiting (since : τ)

inductive RunError where
  | channel (e : ChannelError)
  /-- there is no interval to wait for -/
  | noInterval
  deriving DecidableEq, Repr

inductive Progress (κ τ : Type) where
  | going (s : Session κ τ) (phase : Phase τ)
  | ended (s : Session κ τ) (error : Option RunError)

namespace Session

variable {κ τ : Type} [Time τ] [Clock κ τ]

def readClock (s : Session κ τ) : τ × Session κ τ :=
  let (t, clock) := Clock.read s.clock
  (t, { s with clock })

def turn (s : Session κ τ) : Phase τ → Progress κ τ
  | .next =>
    let (began, s) := s.readClock
    match s.iterate with
    | (s, .error e) => .ended s (some (.channel e))
    | (s, .ok false) => .ended s none
    | (s, .ok true) => .going s (if s.paused then .next else .waiting began)
  | .waiting since =>
    let (now, s) := s.readClock
    match s.tickInterval with
    | some t => .going s (if Time.lt (Time.sub now since) t then .waiting since else .next)
    | none => .ended s (some .noInterval)

section
omit [Time τ] [Clock κ τ]

def cancelAll (ts : Tickets) : List Message → Tickets
  | [] => ts
  | .snapshot n :: ms => cancelAll (ts.cancel n) ms
  | _ :: ms => cancelAll ts ms

def finish (s : Session κ τ) : Session κ τ :=
  let (ms, link) := s.link.drain .session
  { s with link := link.close .session, tickets := cancelAll s.tickets ms }.say
    [.info "Session stopped"]

def begin (s : Session κ τ) : Session κ τ := s.say [.info "Session started"]

end

/-- the turns from a phase on -/
def runFrom (s : Session κ τ) (phase : Phase τ) : Nat → Option (Session κ τ × Option RunError)
  | 0 => none
  | n + 1 =>
    match s.turn phase with
    | .ended s e => some (s.finish, e)
    | .going s phase => s.runFrom phase n

theorem runFrom_ended {s t : Session κ τ} {phase : Phase τ} {e : Option RunError} (n : Nat)
    (h : s.turn phase = .ended t e) : s.runFrom phase (n + 1) = some (t.finish, e) := by
  rw [runFrom, h]

theorem runFrom_going {s t : Session κ τ} {phase after : Phase τ} (n : Nat)
    (h : s.turn phase = .going t after) : s.runFrom phase (n + 1) = t.runFrom after n := by
  rw [runFrom, h]

def run (s : Session κ τ) (n : Nat) : Option (Session κ τ × Option RunError) :=
  s.begin.runFrom .next n

/-- iterations without waiting, until the session satisfies `p` or ends; at most `n` of them -/
def iterateUntil (s : Session κ τ) (p : Session κ τ → Bool) : Nat → Session κ τ × Bool
  | 0 => (s, true)
  | n + 1 =>
    if p s then (s, true)
    else match s.iterate with
      | (s, .ok true) => s.iterateUntil p n
      | (s, _) => (s, false)

/-- up to `n` iterations with the clock changed before each; how many of them went on -/
def iterations (s : Session κ τ) (wind : κ → κ) : Nat → Nat → Session κ τ × Except ChannelError Nat
  | 0, done => (s, .ok done)
  | n + 1, done =>
    match { s with clock := wind s.clock }.iterate with
    | (s, .ok true) => s.iterations wind n (done + 1)
    | (s, .ok false) => (s, .ok done)
    | (s, .error e) => (s, .error e)

end Session

end ChipEight
