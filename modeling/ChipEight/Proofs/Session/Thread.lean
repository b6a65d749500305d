import ChipEight.Proofs.Session.Rounds
import ChipEight.Session.Run
import Mathlib.Logic.Relation

/-!
# The thread of a session

A run is many small steps, and between any two of them a host may do something.

* `Stage`                where a run stands, down to each look at the link;
* `Mark`                 what was done, as a history notes it;
* `Session.advance s st`   the next step: the session and the stage after it, and its marks;
* `Session.Advances`     the same, case by case;
* `Session.Reaches`      many steps, with nobody in between;
* `reaches_iterate`, `reaches_run`   with nobody in between, the steps are those of an iteration and
  of a run.

To receive a message takes two steps: first the queue is looked at, and only if it was empty, in a
step of its own, whether the host has closed.
-/

namespace ChipEight

inductive Stage (τ : Type) where
  | next
  /-- no message was there; has the host closed? -/
  | asking (began : τ)
  | obeying (began : τ) (x : Message)
  /-- the messages are done with; is the timers' tick due? -/
  | timing (began : τ)
  | counting (began : τ)
  | stepping (began : τ)
  /-- the host is about to be told -/
  | halting (e : Escape)
  | waiting (since : τ)
  /-- the loop is left; what is still in the queue is about to be taken -/
  | leaving (error : Option RunError)
  | closing (error : Option RunError)
  | stopped (error : Option RunError)

def Phase.stage {τ : Type} : Phase τ → Stage τ
  | .next => .next
  | .waiting since => .waiting since

namespace Stage

variable {τ : Type}

def ended : Stage τ → Bool
  | .leaving _ | .closing _ | .stopped _ => true
  | _ => false

def drained : Stage τ → Bool
  | .closing _ | .stopped _ => true
  | _ => false

/-- the message that was taken and not yet obeyed -/
def pending : Stage τ → List Message
  | .obeying _ x => [x]
  | _ => []

end Stage

inductive Mark where
  | told (x : Message)
  /-- the host asked for a saved state, and brought a ticket for it -/
  | asked (n : Nat) (t : Ticket)
  /-- the host took all that was sent to it -/
  | collected (xs : List Message)
  | hungUp
  | began
  | heard (x : Message)
  /-- no message was found -/
  | silence
  | disconnected
  /-- a message was obeyed, and what escaped from it -/
  | obeyed (x : Message) (e : Option Escape)
  /-- the timers' tick, and what escaped from it -/
  | counted (e : Option Escape)
  | stepped (e : Option Escape)
  /-- messages that were taken at the end, and not obeyed -/
  | dropped (xs : List Message)
  deriving DecidableEq

/-- what came of a step; the marks are in a list with the newest first -/
structure Advance (κ τ : Type) where
  session : Session κ τ
  stage : Stage τ
  marks : List Mark

namespace Session

variable {κ τ : Type} [Time τ] [Clock κ τ]

def advance (s : Session κ τ) : Stage τ → Advance κ τ
  | .next =>
    let (began, s) := s.readClock
    match (s.link.inbound .session).take with
    | (some x, p) =>
      ⟨{ s with link := s.link.setInbound .session p }, .obeying began x, [.heard x, .began]⟩
    | (none, _) => ⟨s, .asking began, [.silence, .began]⟩
  | .asking began =>
    match (s.link.inbound .session).whenEmpty with
    | .ok _ => ⟨s, .timing began, []⟩
    | .error _ => ⟨{ s with running := false }, .leaving none, [.disconnected]⟩
  | .obeying began x =>
    match s.handle x with
    | (s, some e) => ⟨s, .halting e, [.obeyed x (some e)]⟩
    | (s, none) => ⟨s, if s.running then .timing began else .leaving none, [.obeyed x none]⟩
  | .timing began =>
    if s.paused then ⟨s, .next, []⟩
    else
      let (t, s) := s.elapsed
      ⟨s, if Time.le s.timerInterval t then .counting began else .stepping began, []⟩
  | .counting began =>
    match s.timerTick with
    | (s, .error e) => ⟨s, .halting e, [.counted (some e)]⟩
    | (s, .ok _) => ⟨s, .stepping began, [.counted none]⟩
  | .stepping began =>
    match s.act Console.tick with
    | (s, .error e) => ⟨s, .halting e, [.stepped (some e)]⟩
    | (s, .ok _) => ⟨s, .waiting began, [.stepped none]⟩
  | .halting e =>
    match s.halt e with
    | (s, .ok _) => ⟨s, .leaving none, []⟩
    | (s, .error c) => ⟨s, .leaving (some (.channel c)), []⟩
  | .waiting since =>
    let (now, s) := s.readClock
    match s.tickInterval with
    | some t => ⟨s, if Time.lt (Time.sub now since) t then .waiting since else .next, []⟩
    | none => ⟨s, .leaving (some .noInterval), []⟩
  | .leaving r =>
    let (xs, link) := s.link.drain .session
    ⟨{ s with link, tickets := cancelAll s.tickets xs }, .closing r, [.dropped xs]⟩
  | .closing r =>
    ⟨{ s with link := s.link.close .session }.say [.info "Session stopped"], .stopped r, []⟩
  | .stopped r => ⟨s, .stopped r, []⟩

/-! ## case by case -/

inductive Advances (s : Session κ τ) : Stage τ → Advance κ τ → Prop where
  | hears {x : Message} {rest : List Message} {c : Bool} (hq : s.link.toSession = ⟨x :: rest, c⟩) :
      Advances s .next
        ⟨{ s.readClock.2 with link := { s.link with toSession := ⟨rest, c⟩ } },
          .obeying s.readClock.1 x, [.heard x, .began]⟩
  | hearsNothing (hq : s.link.toSession.queue = []) :
      Advances s .next ⟨s.readClock.2, .asking s.readClock.1, [.silence, .began]⟩
  | goesOn {b : τ} (hc : s.link.toSession.closed = false) :
      Advances s (.asking b) ⟨s, .timing b, []⟩
  | disconnects {b : τ} (hc : s.link.toSession.closed = true) :
      Advances s (.asking b) ⟨{ s with running := false }, .leaving none, [.disconnected]⟩
  | obeys {b : τ} {x : Message} {t : Session κ τ} (ht : s.handle x = (t, none))
      (hr : t.running = true) : Advances s (.obeying b x) ⟨t, .timing b, [.obeyed x none]⟩
  | quits {b : τ} {x : Message} {t : Session κ τ} (ht : s.handle x = (t, none))
      (hr : t.running = false) : Advances s (.obeying b x) ⟨t, .leaving none, [.obeyed x none]⟩
  | obeysNot {b : τ} {x : Message} {t : Session κ τ} {e : Escape} (ht : s.handle x = (t, some e)) :
      Advances s (.obeying b x) ⟨t, .halting e, [.obeyed x (some e)]⟩
  | rests {b : τ} (hp : s.paused = true) : Advances s (.timing b) ⟨s, .next, []⟩
  | due {b : τ} (hp : s.paused = false) (hd : Time.le s.timerInterval s.elapsed.1 = true) :
      Advances s (.timing b) ⟨s.elapsed.2, .counting b, []⟩
  | notDue {b : τ} (hp : s.paused = false) (hd : Time.le s.timerInterval s.elapsed.1 = false) :
      Advances s (.timing b) ⟨s.elapsed.2, .stepping b, []⟩
  | counts {b : τ} {t : Session κ τ} {v : Bool} (ht : s.timerTick = (t, .ok v)) :
      Advances s (.counting b) ⟨t, .stepping b, [.counted none]⟩
  | countsNot {b : τ} {t : Session κ τ} {e : Escape} (ht : s.timerTick = (t, .error e)) :
      Advances s (.counting b) ⟨t, .halting e, [.counted (some e)]⟩
  | steps {b : τ} {t : Session κ τ} {v : Bool} (ht : s.act Console.tick = (t, .ok v)) :
      Advances s (.stepping b) ⟨t, .waiting b, [.stepped none]⟩
  | stepsNot {b : τ} {t : Session κ τ} {e : Escape} (ht : s.act Console.tick = (t, .error e)) :
      Advances s (.stepping b) ⟨t, .halting e, [.stepped (some e)]⟩
  | halts {e : Escape} {t : Session κ τ} {v : Bool} (ht : s.halt e = (t, .ok v)) :
      Advances s (.halting e) ⟨t, .leaving none, []⟩
  | haltsUnheard {e : Escape} {t : Session κ τ} {c : ChannelError} (ht : s.halt e = (t, .error c)) :
      Advances s (.halting e) ⟨t, .leaving (some (.channel c)), []⟩
  | waits {b i : τ} (hi : s.tickInterval = some i)
      (hl : Time.lt (Time.sub s.readClock.1 b) i = true) :
      Advances s (.waiting b) ⟨s.readClock.2, .waiting b, []⟩
  | waited {b i : τ} (hi : s.tickInterval = some i)
      (hl : Time.lt (Time.sub s.readClock.1 b) i = false) :
      Advances s (.waiting b) ⟨s.readClock.2, .next, []⟩
  | waitsNot {b : τ} (hi : s.tickInterval = none) :
      Advances s (.waiting b) ⟨s.readClock.2, .leaving (some .noInterval), []⟩
  | drops {r : Option RunError} :
      Advances s (.leaving r)
        ⟨{ s with
            link := { s.link with toSession := { s.link.toSession with queue := [] } }
            tickets := cancelAll s.tickets s.link.toSession.queue },
          .closing r, [.dropped s.link.toSession.queue]⟩
  | closes {r : Option RunError} :
      Advances s (.closing r)
        ⟨{ s with link := s.link.close .session }.say [.info "Session stopped"], .stopped r, []⟩
  | stays {r : Option RunError} : Advances s (.stopped r) ⟨s, .stopped r, []⟩

theorem Advances.eq {s : Session κ τ} {st : Stage τ} {a : Advance κ τ} (h : s.Advances st a) :
    s.advance st = a := by
  cases h with
  | @hears x rest c hq =>
    have htake : (s.readClock.2.link.inbound .session).take = (some x, ⟨rest, c⟩) := by
      show s.link.toSession.take = _
      rw [hq]
      rfl
    simp only [advance, htake]
    rfl
  | hearsNothing hq =>
    have htake : (s.readClock.2.link.inbound .session).take = (none, s.link.toSession) := by
      show s.link.toSession.take = _
      rw [Pipe.take, hq]
    simp only [advance, htake]
  | goesOn hc =>
    have hempty : (s.link.inbound .session).whenEmpty = .ok none := if_neg (ne_true_of_eq_false hc)
    simp only [advance, hempty]
  | disconnects hc =>
    have hempty : (s.link.inbound .session).whenEmpty = .error .farEndClosed := if_pos hc
    simp only [advance, hempty]
  | obeys ht hr => simp only [advance, ht, hr, if_true]
  | quits ht hr => simp only [advance, ht, hr, Bool.false_eq_true, if_false]
  | obeysNot ht => simp only [advance, ht]
  | rests hp => simp only [advance, hp, if_true]
  | due hp hd =>
    have hinterval : s.elapsed.2.timerInterval = s.timerInterval := rfl
    simp only [advance, hp, hinterval, hd, Bool.false_eq_true, if_false, if_true]
  | notDue hp hd =>
    have hinterval : s.elapsed.2.timerInterval = s.timerInterval := rfl
    simp only [advance, hp, hinterval, hd, Bool.false_eq_true, if_false]
  | counts ht => simp only [advance, ht]
  | countsNot ht => simp only [advance, ht]
  | steps ht => simp only [advance, ht]
  | stepsNot ht => simp only [advance, ht]
  | halts ht => simp only [advance, ht]
  | haltsUnheard ht => simp only [advance, ht]
  | waits hi hl =>
    have hinterval : s.readClock.2.tickInterval = s.tickInterval := rfl
    simp only [advance, hinterval, hi, hl, if_true]
  | waited hi hl =>
    have hinterval : s.readClock.2.tickInterval = s.tickInterval := rfl
    simp only [advance, hinterval, hi, hl, Bool.false_eq_true, if_false]
  | waitsNot hi =>
    have hinterval : s.readClock.2.tickInterval = s.tickInterval := rfl
    simp only [advance, hinterval, hi]
  | drops => rfl
  | closes => rfl
  | stays => rfl

theorem advances (s : Session κ τ) (st : Stage τ) : s.Advances st (s.advance st) := by
  suffices h : ∃ a, s.Advances st a by
    obtain ⟨a, ha⟩ := h
    rw [ha.eq]
    exact ha
  cases st with
  | next =>
    rcases hq : s.link.toSession with ⟨_ | ⟨x, rest⟩, c⟩
    · exact ⟨_, .hearsNothing (congrArg Pipe.queue hq)⟩
    · exact ⟨_, .hears hq⟩
  | asking b =>
    cases hc : s.link.toSession.closed with
    | true => exact ⟨_, .disconnects hc⟩
    | false => exact ⟨_, .goesOn hc⟩
  | obeying b x =>
    rcases ht : s.handle x with ⟨t, _ | e⟩
    · cases hr : t.running with
      | true => exact ⟨_, .obeys ht hr⟩
      | false => exact ⟨_, .quits ht hr⟩
    · exact ⟨_, .obeysNot ht⟩
  | timing b =>
    cases hp : s.paused with
    | true => exact ⟨_, .rests hp⟩
    | false =>
      cases hd : Time.le s.timerInterval s.elapsed.1 with
      | true => exact ⟨_, .due hp hd⟩
      | false => exact ⟨_, .notDue hp hd⟩
  | counting b =>
    rcases ht : s.timerTick with ⟨t, e | v⟩
    · exact ⟨_, .countsNot ht⟩
    · exact ⟨_, .counts ht⟩
  | stepping b =>
    rcases ht : s.act Console.tick with ⟨t, e | v⟩
    · exact ⟨_, .stepsNot ht⟩
    · exact ⟨_, .steps ht⟩
  | halting e =>
    rcases ht : s.halt e with ⟨t, c | v⟩
    · exact ⟨_, .haltsUnheard ht⟩
    · exact ⟨_, .halts ht⟩
  | waiting b =>
    rcases hi : s.tickInterval with _ | i
    · exact ⟨_, .waitsNot hi⟩
    · cases hl : Time.lt (Time.sub s.readClock.1 b) i with
      | true => exact ⟨_, .waits hi hl⟩
      | false => exact ⟨_, .waited hi hl⟩
  | leaving r => exact ⟨_, .drops⟩
  | closing r => exact ⟨_, .closes⟩
  | stopped r => exact ⟨_, .stays⟩

/-! ## nobody in between -/

def Reaches : Session κ τ × Stage τ → Session κ τ × Stage τ → Prop :=
  Relation.ReflTransGen fun a b =>
    (a.1.advance a.2).session = b.1 ∧ (a.1.advance a.2).stage = b.2

variable {s t u : Session κ τ} {st : Stage τ} {b : τ}

theorem Advances.reaches {a : Advance κ τ} (h : s.Advances st a) :
    Reaches (s, st) (a.session, a.stage) := by
  refine .single ?_
  rw [h.eq]
  exact ⟨rfl, rfl⟩

/-- the stage after an iteration with the result `r` -/
def settle (b : τ) (s : Session κ τ) : Except ChannelError Bool → Stage τ
  | .error e => .leaving (some (.channel e))
  | .ok false => .leaving none
  | .ok true => if s.paused then .next else .waiting b

omit [Time τ] [Clock κ τ] in
theorem halt_stops (s : Session κ τ) (e : Escape) :
    (s.halt e).1.running = false ∧ (s.halt e).2 ≠ .ok true := by
  unfold halt
  dsimp only
  split <;> exact ⟨rfl, nofun⟩

theorem reaches_halt (s : Session κ τ) (e : Escape) (b : τ) :
    Reaches (s, .halting e) ((s.halt e).1, settle b (s.halt e).1 (s.halt e).2) := by
  obtain ⟨-, hstop⟩ := s.halt_stops e
  rcases ht : s.halt e with ⟨t, c | _ | _⟩
  · exact (Advances.haltsUnheard ht).reaches
  · exact (Advances.halts ht).reaches
  · rw [ht] at hstop
    exact absurd rfl hstop

theorem timerTickIfDue_of_le (hd : Time.le s.timerInterval s.elapsed.1 = true) :
    s.timerTickIfDue = s.elapsed.2.timerTick := if_pos hd

theorem timerTickIfDue_of_not_le (hd : Time.le s.timerInterval s.elapsed.1 = false) :
    s.timerTickIfDue = (s.elapsed.2, .ok false) := if_neg (ne_true_of_eq_false hd)

theorem reaches_stepping {v : Bool} (hp : s.paused = false)
    (ht : s.timerTickIfDue = (t, .ok v)) : Reaches (s, .timing b) (t, .stepping b) := by
  cases hd : Time.le s.timerInterval s.elapsed.1 with
  | true =>
    rw [timerTickIfDue_of_le hd] at ht
    exact (Advances.due hp hd).reaches.trans (Advances.counts ht).reaches
  | false =>
    rw [timerTickIfDue_of_not_le hd] at ht
    cases ht
    exact (Advances.notDue hp hd).reaches

theorem reaches_untimed {e : Escape} (hp : s.paused = false)
    (ht : s.timerTickIfDue = (t, .error e)) : Reaches (s, .timing b) (t, .halting e) := by
  cases hd : Time.le s.timerInterval s.elapsed.1 with
  | true =>
    rw [timerTickIfDue_of_le hd] at ht
    exact (Advances.due hp hd).reaches.trans (Advances.countsNot ht).reaches
  | false =>
    rw [timerTickIfDue_of_not_le hd] at ht
    cases ht

omit [Clock κ τ] [Time τ] in
theorem paused_act_tick60 (s : Session κ τ) : (s.act Console.tick60).1.paused = s.paused := rfl

theorem paused_timerTick (s : Session κ τ) : s.timerTick.1.paused = s.paused := by
  have hacted := paused_act_tick60 s
  unfold timerTick
  rcases hact : s.act Console.tick60 with ⟨t, e | v⟩ <;> rw [hact] at hacted <;> exact hacted

theorem paused_timerTickIfDue (s : Session κ τ) : s.timerTickIfDue.1.paused = s.paused := by
  cases hd : Time.le s.timerInterval s.elapsed.1 with
  | true =>
    rw [timerTickIfDue_of_le hd, paused_timerTick]
    rfl
  | false =>
    rw [timerTickIfDue_of_not_le hd]
    rfl

theorem reaches_work (s : Session κ τ) (b : τ) :
    Reaches (s, .timing b) (s.work.1, settle b s.work.1 s.work.2) := by
  have hkeeps := paused_timerTickIfDue s
  have hworks := s.works
  generalize s.work = r at hworks ⊢
  cases hworks with
  | paused hp =>
    have hsettled : settle b s (.ok true) = .next := if_pos hp
    rw [hsettled]
    exact (Advances.rests hp).reaches
  | untimed hp ht => exact (reaches_untimed hp ht).trans (reaches_halt _ _ b)
  | @halted t u v e hp ht hu =>
    exact (reaches_stepping hp ht).trans
      ((Advances.stepsNot hu).reaches.trans (reaches_halt _ _ b))
  | @done t u v v' hp ht hu =>
    have hticked := paused_act_tick t
    rw [ht] at hkeeps
    rw [hu, hkeeps, hp] at hticked
    have hsettled : settle b u (.ok true) = .waiting b := if_neg (ne_true_of_eq_false hticked)
    rw [hsettled]
    exact (reaches_stepping hp ht).trans (Advances.steps hu).reaches

theorem reaches_obey (s : Session κ τ) (b : τ) (x : Message) :
    Reaches (s, .obeying b x) ((s.obey x).1, settle b (s.obey x).1 (s.obey x).2) := by
  have hobeys := s.obeys x
  generalize s.obey x = r at hobeys ⊢
  cases hobeys with
  | halted ht => exact (Advances.obeysNot ht).reaches.trans (reaches_halt _ _ b)
  | stopped ht hr => exact (Advances.quits ht hr).reaches
  | going ht hr => exact (Advances.obeys ht hr).reaches.trans (reaches_work _ b)

theorem reaches_iterate (s : Session κ τ) :
    Reaches (s, .next)
      (s.readClock.2.iterate.1,
        settle s.readClock.1 s.readClock.2.iterate.1 s.readClock.2.iterate.2) := by
  rcases hl : s.link.toSession with ⟨_ | ⟨x, rest⟩, c⟩
  · have hlink : s.readClock.2.link.toSession = ⟨[], c⟩ := hl
    have hclosed : s.readClock.2.link.toSession.closed = c := congrArg Pipe.closed hl
    have hsilent := (Advances.hearsNothing (congrArg Pipe.queue hl)).reaches
    cases c with
    | true =>
      rw [iterate_disconnected (Link.receive_ended hlink)]
      exact hsilent.trans (Advances.disconnects hclosed).reaches
    | false =>
      rw [iterate_idle (Link.receive_open hlink)]
      exact hsilent.trans ((Advances.goesOn hclosed).reaches.trans (reaches_work _ _))
  · have hlink : s.readClock.2.link.toSession = ⟨x :: rest, c⟩ := hl
    rw [iterate_message (Link.receive_first hlink)]
    exact (Advances.hears hl).reaches.trans (reaches_obey _ _ x)

theorem reaches_going {p q : Phase τ} (h : s.turn p = .going t q) :
    Reaches (s, p.stage) (t, q.stage) := by
  cases p with
  | next =>
    have hiterate := reaches_iterate s
    unfold turn at h
    dsimp only at h
    rcases hi : s.readClock.2.iterate with ⟨u, e | _ | _⟩ <;> rw [hi] at h hiterate
    · cases h
    · cases h
    · cases h
      cases hp : t.paused with
      | true =>
        simp only [settle, hp, if_true] at hiterate
        exact hiterate
      | false =>
        simp only [settle, hp, Bool.false_eq_true, if_false] at hiterate
        exact hiterate
  | waiting since =>
    unfold turn at h
    dsimp only at h
    rcases hi : s.tickInterval with _ | i
    · rw [show s.readClock.2.tickInterval = none from hi] at h
      cases h
    · rw [show s.readClock.2.tickInterval = some i from hi] at h
      cases h
      cases hl : Time.lt (Time.sub s.readClock.1 since) i with
      | true => exact (Advances.waits hi hl).reaches
      | false => exact (Advances.waited hi hl).reaches

theorem reaches_ended {p : Phase τ} {e : Option RunError} (h : s.turn p = .ended t e) :
    Reaches (s, p.stage) (t, .leaving e) := by
  cases p with
  | next =>
    have hiterate := reaches_iterate s
    unfold turn at h
    dsimp only at h
    rcases hi : s.readClock.2.iterate with ⟨u, c | _ | _⟩ <;> rw [hi] at h hiterate
    · cases h
      exact hiterate
    · cases h
      exact hiterate
    · cases h
  | waiting since =>
    unfold turn at h
    dsimp only at h
    rcases hi : s.tickInterval with _ | i
    · rw [show s.readClock.2.tickInterval = none from hi] at h
      cases h
      exact (Advances.waitsNot hi).reaches
    · rw [show s.readClock.2.tickInterval = some i from hi] at h
      cases h

theorem reaches_finish (s : Session κ τ) (e : Option RunError) :
    Reaches (s, .leaving e) (s.finish, .stopped e) :=
  (Advances.drops).reaches.trans (Advances.closes).reaches

theorem reaches_runFrom {p : Phase τ} {e : Option RunError} {n : Nat}
    (h : s.runFrom p n = some (t, e)) : Reaches (s, p.stage) (t, .stopped e) := by
  induction n generalizing s p with
  | zero => cases h
  | succ n ih =>
    rcases hturn : s.turn p with ⟨u, q⟩ | ⟨u, c⟩
    · rw [runFrom_going n hturn] at h
      exact (reaches_going hturn).trans (ih h)
    · rw [runFrom_ended n hturn] at h
      cases h
      exact (reaches_ended hturn).trans (reaches_finish _ _)

theorem reaches_run {e : Option RunError} {n : Nat} (h : s.run n = some (t, e)) :
    Reaches (s.begin, .next) (t, .stopped e) := reaches_runFrom h

end Session

end ChipEight
