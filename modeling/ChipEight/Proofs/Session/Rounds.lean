import ChipEight.Proofs.Session.Invariant
import ChipEight.Proofs.Session.Stopwatch

/-!
# Rounds of a session

Between two iterations the host may do what it likes; during an iteration the clock stands.

* `Timed`               sessions by exact clocks;
* `Deed`                what a host does: to the link, to a ticket, to the keypad;
* `Round`               a time, and what the host does before the iteration at that time;
* `Session.ready s r`   the session before the iteration of a round;
* `Session.hears s r`   what that iteration finds in the link;
* `Session.round`, `rounds`  a round, and many of them;
* `Sound.rounds`        no rounds get the timer out of step with the pause;
* `Sound.wellFormed`    nor take a well-formed machine out of its bounds.

A ticket belongs to one request: whoever asks for a saved state brings a ticket for it.
-/

namespace ChipEight

/-! ## what a session receives -/

namespace Link

variable {α : Type} {l : Link α} {x : α} {rest : List α} {c : Bool}

theorem receive_open (h : l.toSession = ⟨[], false⟩) : l.receive .session = (.ok none, l) := by
  cases l
  cases h
  rfl

theorem receive_ended (h : l.toSession = ⟨[], true⟩) :
    l.receive .session = (.error .farEndClosed, l) := by
  cases l
  cases h
  rfl

theorem receive_first (h : l.toSession = ⟨x :: rest, c⟩) :
    l.receive .session = (.ok (some x), { l with toSession := ⟨rest, c⟩ }) := by
  cases l
  cases h
  rfl

theorem eq_of_send {e : End} {l' : Link α} (h : l.send e x = .ok l') :
    l' = l.setOutbound e { l.outbound e with queue := (l.outbound e).queue ++ [x] } := by
  unfold send Pipe.send at h
  split at h
  · cases h
  · cases h
    rfl

end Link

/-! ## rounds -/

abbrev Timed := Session (Ticker Rat) Rat

inductive Deed where
  /-- a message is sent, and `ticket` with it if it asks for a saved state -/
  | send (x : Message) (ticket : Ticket)
  | cancel (n : Nat)
  | press (n : Int)
  | lift (n : Int)
  | close
  deriving DecidableEq, Repr

/-- deeds that do not touch the machine -/
def Deed.isMail : Deed → Bool
  | .press _ | .lift _ => false
  | _ => true

structure Round where
  time : Rat
  deeds : List Deed

namespace Round

def later (r : Round) (d : Rat) : Round := { r with time := r.time + d }

def more (r : Round) (xs : List Deed) : Round := { r with deeds := r.deeds ++ xs }

def isMail (r : Round) : Bool := r.deeds.all Deed.isMail

end Round

/-- the tickets after a message was sent, which may have brought one -/
def Tickets.withMail (ts : Tickets) (t : Ticket) : Message → Tickets
  | .snapshot n => ts.set n t
  | _ => ts

namespace Session

variable {m : Machine} {s : Timed}

/-- a deed of the host; nothing is sent once the host has closed its end -/
def deed (s : Timed) : Deed → Timed
  | .send x t =>
    match s.link.send .host x with
    | .ok link => { s with link, tickets := s.tickets.withMail t x }
    | .error _ => s
  | .cancel n => { s with tickets := s.tickets.cancel n }
  | .press n => s.mapMachine (·.press n)
  | .lift n => s.mapMachine (·.lift n)
  | .close => { s with link := s.link.close .host }

def deeds (s : Timed) (xs : List Deed) : Timed := xs.foldl deed s

def ready (s : Timed) (r : Round) : Timed :=
  { s.deeds r.deeds with clock := Ticker.standing r.time }

def hears (s : Timed) (r : Round) : Except ChannelError (Option Message) :=
  ((s.ready r).link.receive .session).1

def round (s : Timed) (r : Round) : Timed := (s.ready r).iterate.1

def rounds (s : Timed) (rs : List Round) : Timed := rs.foldl round s

theorem Sound.deed (h : s.Sound m) (x : Deed) : (s.deed x).Sound m := by
  cases x with
  | send x t =>
    unfold Session.deed
    dsimp only
    split
    · exact ⟨h.timer, h.machine, h.logs⟩
    · exact h
  | press n => exact h.perform (.press n) rfl h.timer rfl
  | lift n => exact h.perform (.lift n) rfl h.timer rfl
  | _ => exact ⟨h.timer, h.machine, h.logs⟩

theorem Sound.deeds (h : s.Sound m) (xs : List Deed) : (s.deeds xs).Sound m := by
  induction xs generalizing s with
  | nil => exact h
  | cons x xs ih => exact ih (h.deed x)

theorem Sound.ready (h : s.Sound m) (r : Round) : (s.ready r).Sound m :=
  ⟨(h.deeds r.deeds).timer, (h.deeds r.deeds).machine, (h.deeds r.deeds).logs⟩

theorem Sound.round (h : s.Sound m) (r : Round) : (s.round r).Sound m := (h.ready r).iterate

theorem Sound.rounds (h : s.Sound m) (rs : List Round) : (s.rounds rs).Sound m := by
  induction rs generalizing s with
  | nil => exact h
  | cons r rs ih => exact ih (h.round r)

theorem Sound.wellFormed (h : s.Sound m) (hm : m.state.WellFormed) :
    s.machine.state.WellFormed := by
  obtain ⟨ops, hops⟩ := h.machine
  rw [hops]
  exact Machine.run_wellFormed hm ops

end Session

end ChipEight
