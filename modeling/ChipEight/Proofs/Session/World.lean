import ChipEight.Proofs.Session.Thread

/-!
# A session and its host

The thread of a session and its host take turns in any order, one step at a time.

* `Act`                  what a host does between two steps of the thread;
* `Session.undergo s a`  the session after it, with its marks;
* `Session.Hosted`       what every act of the host has in common;
* `History`              marks, the newest first; `sent`, `heard`, `obeyed`, `dropped` and
  `collected` are the messages in it, in the order in which that was done to them;
* `World`                a session, the stage it is in, and its history;
* `Move`, `World.run`    steps of the two in any order;
* `World.start`          a new session, with nobody having done anything;
* `World.Reached`        what moves lead to from the start of a session;
* `run_invariant`, `Reached.run_invariant`, `reached_invariant`   what every move preserves, a run
  preserves;
* `reached_of_run`       so is what the run of a session ends with, when nobody else moves.
-/

namespace ChipEight

/-- a request goes with a ticket that exists -/
def Tickets.covers (ts : Tickets) : Message → Bool
  | .snapshot n => (ts.get? n).isSome
  | _ => true

inductive Act where
  | tell (x : Message)
  | ask (t : Ticket)
  | cancel (n : Nat)
  | press (n : Int)
  | lift (n : Int)
  | collect
  | close
  deriving DecidableEq

/-! ## histories -/

abbrev History := List Mark

namespace Mark

def isHost : Mark → Bool
  | told _ | asked _ _ | collected _ | hungUp => true
  | _ => false

/-- what may still be done once the loop is being left -/
def trails : Mark → Bool
  | dropped _ => true
  | m => m.isHost

/-- what escaped -/
def escape : Mark → Option Escape
  | obeyed _ e | counted e | stepped e => e
  | _ => none

def ends : Mark → Bool
  | disconnected | obeyed .shutdown none => true
  | m => m.escape.isSome

def sends : Mark → List Message
  | told x => [x]
  | asked n _ => [.snapshot n]
  | _ => []

def hears : Mark → List Message
  | heard x => [x]
  | _ => []

def obeys : Mark → List Message
  | obeyed x _ => [x]
  | _ => []

def drops : Mark → List Message
  | dropped xs => xs
  | _ => []

def collects : Mark → List Message
  | collected xs => xs
  | _ => []

theorem trails_of_isHost {m : Mark} (h : m.isHost = true) : m.trails = true := by
  cases m <;> first | rfl | cases h

theorem hears_of_trails {m : Mark} (h : m.trails = true) : m.hears = [] := by
  cases m <;> first | rfl | cases h

theorem obeys_of_trails {m : Mark} (h : m.trails = true) : m.obeys = [] := by
  cases m <;> first | rfl | cases h

theorem drops_of_isHost {m : Mark} (h : m.isHost = true) : m.drops = [] := by
  cases m <;> first | rfl | cases h

theorem ends_of_trails {m : Mark} (h : m.trails = true) : m.ends = false := by
  cases m <;> first | rfl | cases h

theorem ends_of_escape {m : Mark} {e : Escape} (h : m.escape = some e) : m.ends = true := by
  cases m with
  | obeyed x e =>
    cases h
    cases x <;> rfl
  | counted e =>
    cases h
    rfl
  | stepped e =>
    cases h
    rfl
  | _ => cases h

end Mark

namespace History

def messages (f : Mark → List Message) : History → List Message
  | [] => []
  | m :: h => messages f h ++ f m

section
variable (f : Mark → List Message)

theorem messages_nil : messages f [] = [] := rfl

theorem messages_cons (m : Mark) (h : History) : messages f (m :: h) = messages f h ++ f m := rfl

theorem messages_append (a b : History) : messages f (a ++ b) = messages f b ++ messages f a := by
  induction a with
  | nil => exact (List.append_nil _).symm
  | cons m a ih => rw [List.cons_append, messages_cons, messages_cons, ih, List.append_assoc]

theorem messages_split (after : History) (m : Mark) (before : History) :
    messages f (after ++ m :: before) = messages f before ++ f m ++ messages f after :=
  messages_append f after (m :: before)

variable {f} {h : History}

theorem messages_eq_nil (hf : ∀ m ∈ h, f m = []) : messages f h = [] := by
  induction h with
  | nil => rfl
  | cons m h ih =>
    rw [messages_cons, ih fun m' hm' => hf m' (List.mem_cons_of_mem _ hm'),
      hf m List.mem_cons_self, List.append_nil]

theorem mem_messages {x : Message} : x ∈ messages f h ↔ ∃ m ∈ h, x ∈ f m := by
  induction h with
  | nil => simp [messages_nil]
  | cons m h ih => simp [messages_cons, ih, or_comm]

end

def sent (h : History) : List Message := messages Mark.sends h

def heard (h : History) : List Message := messages Mark.hears h

/-- the messages that were obeyed, also those from which something escaped -/
def obeyed (h : History) : List Message := messages Mark.obeys h

def dropped (h : History) : List Message := messages Mark.drops h

def collected (h : History) : List Message := messages Mark.collects h

section
variable (a b : History)

theorem sent_append : sent (a ++ b) = sent b ++ sent a := messages_append _ a b

theorem heard_append : heard (a ++ b) = heard b ++ heard a := messages_append _ a b

theorem obeyed_append : obeyed (a ++ b) = obeyed b ++ obeyed a := messages_append _ a b

theorem dropped_append : dropped (a ++ b) = dropped b ++ dropped a := messages_append _ a b

theorem collected_append : collected (a ++ b) = collected b ++ collected a := messages_append _ a b

end

theorem mem_heard {h : History} {x : Message} : x ∈ h.heard ↔ .heard x ∈ h := by
  rw [heard, mem_messages]
  constructor
  · rintro ⟨m, hm, hx⟩
    cases m with
    | heard y =>
      cases List.mem_singleton.mp hx
      exact hm
    | _ => cases hx
  · intro hm
    exact ⟨_, hm, List.mem_singleton_self x⟩

end History

/-! ## what the host does -/

namespace Session

variable {κ τ : Type}

def mailed (s : Session κ τ) (x : Message) : Session κ τ :=
  { s with
    link := { s.link with
      toSession := { s.link.toSession with queue := s.link.toSession.queue ++ [x] } } }

/-- nothing is sent once the host has closed its end -/
def undergo (s : Session κ τ) : Act → Session κ τ × History
  | .tell x =>
    if s.link.toSession.closed || !s.tickets.covers x then (s, []) else (s.mailed x, [.told x])
  | .ask t =>
    if s.link.toSession.closed then (s, [])
    else ((s.issue t).2.mailed (.snapshot (s.issue t).1), [.asked (s.issue t).1 t])
  | .cancel n => ({ s with tickets := s.tickets.cancel n }, [])
  | .press n => (s.mapMachine (·.press n), [])
  | .lift n => (s.mapMachine (·.lift n), [])
  | .collect =>
    ({ s with link := { s.link with toHost := { s.link.toHost with queue := [] } } },
      [.collected s.link.toHost.queue])
  | .close =>
    ({ s with link := { s.link with toSession := s.link.toSession.close } }, [.hungUp])

structure Hosted (s : Session κ τ) (r : Session κ τ × History) : Prop where
  marks : ∀ m ∈ r.2, m.isHost = true
  queue : r.1.link.toSession.queue = s.link.toSession.queue ++ r.2.sent
  closed : s.link.toSession.closed = true → r.1.link.toSession.closed = true ∧ r.2.sent = []
  posted : r.2.collected ++ r.1.link.toHost.queue = s.link.toHost.queue
  toHost : r.1.link.toHost.closed = s.link.toHost.closed
  running : r.1.running = s.running
  fault : r.1.fault = s.fault
  tickInterval : r.1.tickInterval = s.tickInterval
  console : ∃ keypad, r.1.console = s.console.mapMachine fun m =>
    m.mapState fun st => { st with keypad }

theorem Hosted.unsent (s : Session κ τ) (tickets : Tickets) :
    Hosted s ({ s with tickets }, []) where
  marks := List.forall_mem_nil _
  queue := (List.append_nil _).symm
  closed := fun hc => ⟨hc, rfl⟩
  posted := rfl
  toHost := rfl
  running := rfl
  fault := rfl
  tickInterval := rfl
  console := ⟨s.machine.state.keypad, rfl⟩

theorem Hosted.sends {s : Session κ τ} (hc : s.link.toSession.closed = false) (tickets : Tickets)
    {m : Mark} {x : Message} (hm : m.isHost = true) (hx : m.sends = [x]) (hn : m.collects = []) :
    Hosted s (Session.mailed { s with tickets } x, [m]) where
  marks := fun _ hm' => List.mem_singleton.mp hm' ▸ hm
  queue := congrArg (s.link.toSession.queue ++ ·) hx.symm
  closed := fun hc' => absurd hc' (ne_true_of_eq_false hc)
  posted := congrArg (· ++ s.link.toHost.queue) hn
  toHost := rfl
  running := rfl
  fault := rfl
  tickInterval := rfl
  console := ⟨s.machine.state.keypad, rfl⟩

theorem hosted (s : Session κ τ) (a : Act) : s.Hosted (s.undergo a) := by
  cases a with
  | tell x =>
    unfold undergo
    dsimp only
    split
    · exact .unsent s s.tickets
    · rename_i hopen
      have hc : s.link.toSession.closed = false := by
        simp only [Bool.or_eq_true, not_or, Bool.not_eq_true] at hopen
        exact hopen.1
      exact .sends hc s.tickets rfl rfl rfl
  | ask t =>
    unfold undergo
    dsimp only
    split
    · exact .unsent s s.tickets
    · rename_i hopen
      exact .sends (eq_false_of_ne_true hopen) _ rfl rfl rfl
  | cancel n => exact .unsent s _
  | press n =>
    exact { Hosted.unsent s s.tickets with console := ⟨_, rfl⟩ }
  | lift n =>
    exact { Hosted.unsent s s.tickets with console := ⟨_, rfl⟩ }
  | collect =>
    exact {
      Hosted.unsent s s.tickets with
      marks := fun m hm => List.mem_singleton.mp hm ▸ rfl
      posted := List.append_nil _ }
  | close =>
    exact {
      Hosted.unsent s s.tickets with
      marks := fun m hm => List.mem_singleton.mp hm ▸ rfl
      closed := fun _ => ⟨rfl, rfl⟩ }

namespace Hosted

variable {s : Session κ τ} {r : Session κ τ × History}

theorem machine (h : s.Hosted r) :
    ∃ keypad, r.1.machine = s.machine.mapState fun st => { st with keypad } := by
  obtain ⟨keypad, hc⟩ := h.console
  exact ⟨keypad, congrArg Console.machine hc⟩

theorem heard (h : s.Hosted r) : r.2.heard = [] :=
  History.messages_eq_nil fun m hm => Mark.hears_of_trails (Mark.trails_of_isHost (h.marks m hm))

theorem obeyed (h : s.Hosted r) : r.2.obeyed = [] :=
  History.messages_eq_nil fun m hm => Mark.obeys_of_trails (Mark.trails_of_isHost (h.marks m hm))

theorem dropped (h : s.Hosted r) : r.2.dropped = [] :=
  History.messages_eq_nil fun m hm => Mark.drops_of_isHost (h.marks m hm)

end Hosted

end Session

/-! ## both of them -/

structure World (κ τ : Type) where
  session : Session κ τ
  stage : Stage τ
  history : History

inductive Move where
  | thread
  | host (a : Act)
  deriving DecidableEq

namespace World

variable {κ τ : Type} [Time τ] [Clock κ τ]

def move (w : World κ τ) : Move → World κ τ
  | .thread =>
    ⟨(w.session.advance w.stage).session, (w.session.advance w.stage).stage,
      (w.session.advance w.stage).marks ++ w.history⟩
  | .host a => ⟨(w.session.undergo a).1, w.stage, (w.session.undergo a).2 ++ w.history⟩

def run (w : World κ τ) (ms : List Move) : World κ τ := ms.foldl move w

def start (c : Console) (clock : κ) (tickInterval : Option τ) (timerInterval : τ) (files : Files) :
    World κ τ :=
  ⟨(Session.start c .fresh clock tickInterval timerInterval files).begin, .next, []⟩

theorem run_cons (w : World κ τ) (m : Move) (ms : List Move) :
    w.run (m :: ms) = (w.move m).run ms := rfl

theorem run_append (w : World κ τ) (ms ns : List Move) : w.run (ms ++ ns) = (w.run ms).run ns :=
  List.foldl_append

def Reached (w : World κ τ) : Prop :=
  ∃ c clock tickInterval timerInterval files ms,
    w = (start c clock tickInterval timerInterval files).run ms

theorem run_invariant {P : World κ τ → Prop}
    (hthread : ∀ (w : World κ τ) (a : Advance κ τ), w.session.Advances w.stage a → P w →
      P ⟨a.session, a.stage, a.marks ++ w.history⟩)
    (hhost : ∀ (w : World κ τ) (a : Act), P w → P (w.move (.host a)))
    {w : World κ τ} (hw : P w) (ms : List Move) : P (w.run ms) := by
  induction ms generalizing w with
  | nil => exact hw
  | cons m ms ih =>
    rw [run_cons]
    cases m with
    | thread => exact ih (hthread w _ (w.session.advances w.stage) hw)
    | host a => exact ih (hhost w a hw)

theorem Reached.run {w : World κ τ} (hw : w.Reached) (ns : List Move) : (w.run ns).Reached := by
  obtain ⟨c, clock, tickInterval, timerInterval, files, ms, rfl⟩ := hw
  exact ⟨c, clock, tickInterval, timerInterval, files, ms ++ ns, (run_append _ ms ns).symm⟩

theorem Reached.move {w : World κ τ} (hw : w.Reached) (m : Move) : (w.move m).Reached := hw.run [m]

theorem Reached.run_invariant {P : World κ τ → Prop}
    (hthread : ∀ (w : World κ τ) (a : Advance κ τ), w.Reached → w.session.Advances w.stage a →
      P w → P ⟨a.session, a.stage, a.marks ++ w.history⟩)
    (hhost : ∀ (w : World κ τ) (a : Act), w.Reached → P w → P (w.move (.host a)))
    {w : World κ τ} (hr : w.Reached) (hw : P w) (ms : List Move) : P (w.run ms) := by
  refine (World.run_invariant (P := fun w => w.Reached ∧ P w) ?_ ?_ ⟨hr, hw⟩ ms).2
  · rintro w a ha ⟨hr, hp⟩
    have hmove := hr.move .thread
    rw [World.move, ha.eq] at hmove
    exact ⟨hmove, hthread w a hr ha hp⟩
  · rintro w a ⟨hr, hp⟩
    exact ⟨hr.move (.host a), hhost w a hr hp⟩

theorem reached_invariant {P : World κ τ → Prop}
    (hstart : ∀ c clock tickInterval timerInterval files,
      P (start c clock tickInterval timerInterval files))
    (hthread : ∀ (w : World κ τ) (a : Advance κ τ), w.Reached → w.session.Advances w.stage a →
      P w → P ⟨a.session, a.stage, a.marks ++ w.history⟩)
    (hhost : ∀ (w : World κ τ) (a : Act), w.Reached → P w → P (w.move (.host a)))
    {w : World κ τ} (hw : w.Reached) : P w := by
  obtain ⟨c, clock, tickInterval, timerInterval, files, ms, rfl⟩ := hw
  have hfirst : (start c clock tickInterval timerInterval files).Reached :=
    ⟨c, clock, tickInterval, timerInterval, files, [], rfl⟩
  exact hfirst.run_invariant hthread hhost (hstart ..) ms

/-- where the thread gets by itself -/
theorem run_reaches {s t : Session κ τ} {st st' : Stage τ} (h : Session.Reaches (s, st) (t, st'))
    (hist : History) :
    ∃ n hist', run ⟨s, st, hist⟩ (List.replicate n .thread) = ⟨t, st', hist'⟩ := by
  generalize hb : (t, st') = b at h
  induction h generalizing t st' with
  | refl =>
    cases hb
    exact ⟨0, hist, rfl⟩
  | @tail u v _ hstep ih =>
    obtain ⟨n, hist', hrun⟩ := ih rfl
    subst hb
    refine ⟨n + 1, (u.1.advance u.2).marks ++ hist', ?_⟩
    rw [List.replicate_succ', run_append, hrun]
    exact congrArg₂ (World.mk · · _) hstep.1 hstep.2

theorem reached_of_run {c : Console} {clock : κ} {tickInterval : Option τ} {timerInterval : τ}
    {files : Files} {n : Nat} {t : Session κ τ} {e : Option RunError}
    (h : (Session.start c .fresh clock tickInterval timerInterval files).run n = some (t, e)) :
    ∃ w : World κ τ, w.Reached ∧ w.session = t ∧ w.stage = .stopped e := by
  obtain ⟨k, hist, hrun⟩ := run_reaches (Session.reaches_run h) []
  refine ⟨⟨t, .stopped e, hist⟩, ?_, rfl, rfl⟩
  exact ⟨c, clock, tickInterval, timerInterval, files, List.replicate k .thread, hrun.symm⟩

end World

end ChipEight
