import ChipEight.Proofs.Session.World
import Mathlib.Data.List.Pairwise

/-!
# The order of messages

What the two sides of a session do to each other's messages, whichever way their steps fall
together.

* `Session.Handles s x t`   what a message does to the machine, and what it leaves alone;
* `Session.Draws s t`    the host sees nothing of what became of `s`, but that pictures were posted;
* `World.Orderly`        every message sent is heard, dropped or on its way, in the order of
  sending; what was heard is obeyed at once;
* `Mark.allows`          which marks may come after a mark;
* `Stage.bears`          which marks may be there at a stage;
* `World.Trails`         no mark that was not allowed: once the loop is left, or told to stop, the
  thread does nothing more;
* `Reached.orderly`, `.trails`   so it is in every run.
-/

namespace ChipEight

/-! ## what goes to the host -/

def Pipe.drawn (p : Pipe Message) (n : Nat) : Pipe Message :=
  ⟨p.queue ++ List.replicate n .draw, p.closed⟩

theorem Pipe.drawn_zero (p : Pipe Message) : p.drawn 0 = p := by
  rw [drawn, List.replicate_zero, List.append_nil]

theorem Pipe.drawn_drawn (p : Pipe Message) (n k : Nat) :
    (p.drawn n).drawn k = p.drawn (n + k) := by
  rw [drawn, drawn, drawn, List.append_assoc, List.replicate_append_replicate]

/-- watchers post pictures, and nothing else -/
theorem announce_posts (e : Event) (out : Pipe Message) (rs : List Reaction) :
    ∃ n, (announce e out rs).outbox = out.drawn n := by
  induction rs generalizing out with
  | nil => exact ⟨0, out.drawn_zero.symm⟩
  | cons r rs ih =>
    cases r with
    | record => exact ih out
    | refuse what => exact ⟨0, out.drawn_zero.symm⟩
    | post =>
      obtain ⟨q, _ | _⟩ := out
      · obtain ⟨n, hn⟩ := ih (Pipe.drawn ⟨q, false⟩ 1)
        refine ⟨1 + n, ?_⟩
        rw [← Pipe.drawn_drawn]
        exact hn
      · exact ⟨0, (Pipe.drawn_zero _).symm⟩

/-! ## what a message does -/

def Machine.hear (m : Machine) : Message → Machine
  | .pause => m.pause
  | .unpause => m.unpause
  | .keyReleased k => m.release k
  | _ => m

theorem Machine.pause_self {m : Machine} (h : m.paused = true) : m.pause = m := by
  rw [pause, ← h]

theorem Machine.unpause_self {m : Machine} (h : m.paused = false) : m.unpause = m := by
  rw [unpause, ← h]

theorem Console.mapMachine_self {c : Console} {f : Machine → Machine}
    (h : f c.machine = c.machine) : c.mapMachine f = c := congrArg (Console.mk · c.watchers) h

namespace Session

variable {κ τ : Type} {s t u : Session κ τ}

/-- what became of `s` when it obeyed `x`, as far as others see it -/
structure Handles (s : Session κ τ) (x : Message) (t : Session κ τ) : Prop where
  console : t.console = s.console.mapMachine (·.hear x)
  link : t.link = s.link
  running : t.running = (x != .shutdown && s.running)
  fault : t.fault = s.fault

structure Draws (s t : Session κ τ) : Prop where
  inbox : t.link.toSession = s.link.toSession
  outbox : ∃ n, t.link.toHost = s.link.toHost.drawn n
  running : t.running = s.running
  fault : t.fault = s.fault

/-- a session that differs from `s` in nothing the host sees -/
theorem Draws.of_eq (hl : t.link = s.link) (hr : t.running = s.running) (hf : t.fault = s.fault) :
    s.Draws t := by
  refine ⟨congrArg Link.toSession hl, ⟨0, ?_⟩, hr, hf⟩
  rw [hl, Pipe.drawn_zero]

variable {x : Message} {e : Escape}

theorem Draws.act_tick {r : Except Escape Bool} (h : s.act Console.tick = (t, r)) : s.Draws t := by
  obtain rfl : (s.act Console.tick).1 = t := congrArg Prod.fst h
  refine ⟨rfl, ?_, rfl, rfl⟩
  show ∃ n, (s.console.tick s.link.toHost).outbox = _
  unfold Console.tick
  dsimp only
  split
  · exact ⟨0, (Pipe.drawn_zero _).symm⟩
  · exact ⟨0, (Pipe.drawn_zero _).symm⟩
  · exact announce_posts _ _ _

theorem Draws.act_tick60 (s : Session κ τ) : s.Draws (s.act Console.tick60).1 :=
  ⟨rfl, announce_posts _ _ _, rfl, rfl⟩

theorem halt_stays {r : Except ChannelError Bool} (h : s.halt e = (t, r)) :
    t.link.toSession = s.link.toSession ∧ t.running = false ∧ t.fault = some e.toFault ∧
      t.console = s.console ∧ t.tickets = s.tickets := by
  unfold halt at h
  dsimp only at h
  split at h
  · rename_i hsent
    cases h
    rw [Link.eq_of_send hsent]
    exact ⟨rfl, rfl, rfl, rfl, rfl⟩
  · cases h
    exact ⟨rfl, rfl, rfl, rfl, rfl⟩

variable [Time τ] [Clock κ τ]

/-- the tick of the timers, and whatever becomes of the stopwatch -/
theorem timerTick_eq {r : Except Escape Bool} (h : s.timerTick = (t, r)) :
    ∃ timer clock, t = { (s.act Console.tick60).1 with timer, clock } := by
  unfold Session.timerTick at h
  rcases hact : s.act Console.tick60 with ⟨u, e | v⟩ <;> rw [hact] at h <;> cases h
  · exact ⟨t.timer, t.clock, rfl⟩
  · exact ⟨_, _, rfl⟩

theorem Draws.timerTick {r : Except Escape Bool} (h : s.timerTick = (t, r)) : s.Draws t := by
  obtain ⟨hinbox, houtbox, hrunning, hfault⟩ := Draws.act_tick60 s
  obtain ⟨timer, clock, rfl⟩ := timerTick_eq h
  exact ⟨hinbox, houtbox, hrunning, hfault⟩

theorem handles {e : Option Escape} (h : s.handle x = (t, e)) : s.Handles x t := by
  obtain rfl : (s.handle x).1 = t := congrArg Prod.fst h
  cases x with
  | pause =>
    unfold Session.handle doPause
    dsimp only
    split
    · rename_i hp
      exact ⟨(Console.mapMachine_self (Machine.pause_self hp)).symm, rfl, rfl, rfl⟩
    · exact ⟨rfl, rfl, rfl, rfl⟩
  | unpause =>
    unfold Session.handle doUnpause
    dsimp only
    split
    · exact ⟨rfl, rfl, rfl, rfl⟩
    · rename_i hp
      have hrunning := Machine.unpause_self (eq_false_of_ne_true hp)
      exact ⟨(Console.mapMachine_self hrunning).symm, rfl, rfl, rfl⟩
  | save path =>
    obtain ⟨files, log, e, hdone⟩ := s.doSave_eq path
    rw [Session.handle, hdone]
    exact ⟨rfl, rfl, rfl, rfl⟩
  | snapshot n =>
    obtain ⟨tickets, e, hdone⟩ := s.doSnapshot_eq n
    rw [Session.handle, hdone]
    exact ⟨rfl, rfl, rfl, rfl⟩
  | _ => exact ⟨rfl, rfl, rfl, rfl⟩

theorem Draws.handle {e : Option Escape} (h : s.handle x = (t, e)) (hx : x ≠ .shutdown) :
    s.Draws t := by
  obtain ⟨-, hlink, hrunning, hfault⟩ := handles h
  refine .of_eq hlink ?_ hfault
  rw [hrunning, bne_iff_ne.mpr hx, Bool.true_and]

theorem inbox_handle {e : Option Escape} (h : s.handle x = (t, e)) :
    t.link.toSession = s.link.toSession := congrArg Link.toSession (handles h).link

/-- only the shutdown stops a session that obeys it; nothing escapes from that -/
theorem handle_cases {e : Option Escape} (h : s.handle x = (t, e)) :
    (x = .shutdown ∧ e = none ∧ t = { s with running := false }) ∨
      (x ≠ .shutdown ∧ s.Draws t) := by
  by_cases hx : x = .shutdown
  · subst hx
    cases h
    exact .inl ⟨rfl, rfl, rfl⟩
  · exact .inr ⟨hx, .handle h hx⟩

end Session

namespace Session.Advances

variable {κ τ : Type} [Time τ] [Clock κ τ] {s : Session κ τ} {st : Stage τ} {a : Advance κ τ}

theorem sent (h : s.Advances st a) : History.sent a.marks = [] := by
  cases h <;> rfl

theorem closed (h : s.Advances st a) :
    a.session.link.toSession.closed = s.link.toSession.closed := by
  cases h with
  | hears hq =>
    rw [hq]
  | obeys ht hr => exact congrArg Pipe.closed (inbox_handle ht)
  | quits ht hr => exact congrArg Pipe.closed (inbox_handle ht)
  | obeysNot ht => exact congrArg Pipe.closed (inbox_handle ht)
  | counts ht => exact congrArg Pipe.closed (Draws.timerTick ht).inbox
  | countsNot ht => exact congrArg Pipe.closed (Draws.timerTick ht).inbox
  | steps ht => exact congrArg Pipe.closed (Draws.act_tick ht).inbox
  | stepsNot ht => exact congrArg Pipe.closed (Draws.act_tick ht).inbox
  | halts ht => exact congrArg Pipe.closed (halt_stays ht).1
  | haltsUnheard ht => exact congrArg Pipe.closed (halt_stays ht).1
  | _ => rfl

end Session.Advances

/-! ## every message is somewhere -/

def Mark.isMail : Mark → Bool
  | told _ | asked _ _ | heard _ | obeyed _ _ | dropped _ => true
  | _ => false

theorem History.no_mail {ms : History} (h : ms.any Mark.isMail = false) :
    ms.sent = [] ∧ ms.heard = [] ∧ ms.obeyed = [] ∧ ms.dropped = [] := by
  rw [List.any_eq_false] at h
  have hnone (f : Mark → List Message) (hf : ∀ m, m.isMail = false → f m = []) :
      messages f ms = [] := messages_eq_nil fun m hm => hf m (eq_false_of_ne_true (h m hm))
  refine ⟨hnone _ ?_, hnone _ ?_, hnone _ ?_, hnone _ ?_⟩ <;>
    (intro m hm; cases m <;> first | rfl | cases hm)

namespace World

variable {κ τ : Type}

structure Orderly (w : World κ τ) : Prop where
  running : w.stage.ended = false → w.session.running = true
  sent : w.history.sent =
    w.history.heard ++ w.history.dropped ++ w.session.link.toSession.queue
  heard : w.history.heard = w.history.obeyed ++ w.stage.pending
  dropped : w.stage.drained = false → w.history.dropped = []

section
variable {s t : Session κ τ} {st st' : Stage τ} {h ms : History}

theorem Orderly.step (hw : Orderly ⟨s, st, h⟩) (hq : t.link.toSession = s.link.toSession)
    (hms : ms.any Mark.isMail = false) (hp : st'.pending = st.pending)
    (hd : st'.drained = st.drained) (hr : st'.ended = false → t.running = true) :
    Orderly ⟨t, st', ms ++ h⟩ := by
  obtain ⟨hsent, hheard, hobeyed, hdropped⟩ := History.no_mail hms
  obtain ⟨-, hs, hh, hn⟩ := hw
  refine ⟨hr, ?_, ?_, ?_⟩
  · show History.sent (ms ++ h) =
      History.heard (ms ++ h) ++ History.dropped (ms ++ h) ++ t.link.toSession.queue
    rw [History.sent_append, History.heard_append, History.dropped_append, hsent, hheard, hdropped,
      hq, List.append_nil, List.append_nil, List.append_nil]
    exact hs
  · show History.heard (ms ++ h) = History.obeyed (ms ++ h) ++ st'.pending
    rw [History.heard_append, History.obeyed_append, hheard, hobeyed, hp, List.append_nil,
      List.append_nil]
    exact hh
  · intro hdrained
    show History.dropped (ms ++ h) = []
    rw [History.dropped_append, hdropped, List.append_nil]
    exact hn (hd.symm.trans hdrained)

theorem Orderly.obey {b : τ} {x : Message} {e : Option Escape} (hw : Orderly ⟨s, .obeying b x, h⟩)
    (hq : t.link.toSession = s.link.toSession) (hp : st'.pending = [])
    (hr : st'.ended = false → t.running = true) : Orderly ⟨t, st', .obeyed x e :: h⟩ := by
  obtain ⟨-, hs, hh, hn⟩ := hw
  dsimp only at hs hh hn
  refine ⟨hr, ?_, ?_, fun _ => ?_⟩
  · show h.sent ++ [] = h.heard ++ [] ++ (h.dropped ++ []) ++ t.link.toSession.queue
    simp [hs, hq]
  · show h.heard ++ [] = h.obeyed ++ [x] ++ st'.pending
    rw [hp]
    simp [hh, Stage.pending]
  · show h.dropped ++ [] = []
    simp [hn rfl]

end

variable [Time τ] [Clock κ τ]

theorem Orderly.thread {w : World κ τ} (hw : w.Orderly) {a : Advance κ τ}
    (ha : w.session.Advances w.stage a) : Orderly ⟨a.session, a.stage, a.marks ++ w.history⟩ := by
  obtain ⟨s, st, (h : History)⟩ := w
  obtain ⟨hrun, hs, hh, hn⟩ := id hw
  dsimp only at hrun hs hh hn
  cases ha with
  | @hears x rest c hq =>
    have hnone : History.dropped h = [] := hn rfl
    have hqueue : s.link.toSession.queue = x :: rest := congrArg Pipe.queue hq
    rw [hnone, hqueue, List.append_nil] at hs
    refine ⟨fun _ => hrun rfl, ?_, ?_, fun _ => ?_⟩
    · show h.sent ++ [] ++ [] = h.heard ++ [] ++ [x] ++ (h.dropped ++ [] ++ []) ++ rest
      simp [hs, hnone]
    · show h.heard ++ [] ++ [x] = h.obeyed ++ [] ++ [] ++ [x]
      simp [hh, Stage.pending]
    · show h.dropped ++ [] ++ [] = []
      simp [hnone]
  | hearsNothing hq => exact hw.step rfl rfl rfl rfl fun _ => hrun rfl
  | goesOn hc => exact hw.step rfl rfl rfl rfl fun _ => hrun rfl
  | disconnects hc => exact hw.step rfl rfl rfl rfl nofun
  | @obeys b x t ht hr => exact hw.obey (Session.inbox_handle ht) rfl fun _ => hr
  | @quits b x t ht hr => exact hw.obey (Session.inbox_handle ht) rfl nofun
  | @obeysNot b x t e ht =>
    rcases Session.handle_cases ht with ⟨-, he, -⟩ | ⟨-, hdraws⟩
    · cases he
    · exact hw.obey hdraws.inbox rfl fun _ => hdraws.running.trans (hrun rfl)
  | rests hp => exact hw.step rfl rfl rfl rfl fun _ => hrun rfl
  | due hp hd => exact hw.step rfl rfl rfl rfl fun _ => hrun rfl
  | notDue hp hd => exact hw.step rfl rfl rfl rfl fun _ => hrun rfl
  | counts ht =>
    have hdraws := Session.Draws.timerTick ht
    exact hw.step hdraws.inbox rfl rfl rfl fun _ => hdraws.running.trans (hrun rfl)
  | countsNot ht =>
    have hdraws := Session.Draws.timerTick ht
    exact hw.step hdraws.inbox rfl rfl rfl fun _ => hdraws.running.trans (hrun rfl)
  | steps ht =>
    have hdraws := Session.Draws.act_tick ht
    exact hw.step hdraws.inbox rfl rfl rfl fun _ => hdraws.running.trans (hrun rfl)
  | stepsNot ht =>
    have hdraws := Session.Draws.act_tick ht
    exact hw.step hdraws.inbox rfl rfl rfl fun _ => hdraws.running.trans (hrun rfl)
  | halts ht => exact hw.step (Session.halt_stays ht).1 rfl rfl rfl nofun
  | haltsUnheard ht => exact hw.step (Session.halt_stays ht).1 rfl rfl rfl nofun
  | waits hi hl => exact hw.step rfl rfl rfl rfl fun _ => hrun rfl
  | waited hi hl => exact hw.step rfl rfl rfl rfl fun _ => hrun rfl
  | waitsNot hi => exact hw.step rfl rfl rfl rfl nofun
  | @drops r =>
    rw [hn rfl, List.append_nil] at hs
    refine ⟨nofun, ?_, ?_, nofun⟩
    · show h.sent ++ [] = h.heard ++ [] ++ (h.dropped ++ s.link.toSession.queue) ++ []
      simp [hs, hn rfl]
    · show h.heard ++ [] = h.obeyed ++ [] ++ []
      simp [hh, Stage.pending]
  | closes => exact hw.step rfl rfl rfl rfl nofun
  | stays => exact hw.step rfl rfl rfl rfl nofun

omit [Time τ] [Clock κ τ] in
theorem Orderly.host {w : World κ τ} (hw : w.Orderly) {r : Session κ τ × History}
    (hr : w.session.Hosted r) : Orderly ⟨r.1, w.stage, r.2 ++ w.history⟩ := by
  obtain ⟨s, st, (h : History)⟩ := w
  obtain ⟨hrun, hs, hh, hn⟩ := hw
  dsimp only at hrun hs hh hn
  refine ⟨fun hended => hr.running.trans (hrun hended), ?_, ?_, fun hdrained => ?_⟩
  · show History.sent (r.2 ++ h) =
      History.heard (r.2 ++ h) ++ History.dropped (r.2 ++ h) ++ r.1.link.toSession.queue
    rw [History.sent_append, History.heard_append, History.dropped_append, hr.heard, hr.dropped,
      hr.queue, hs]
    simp
  · show History.heard (r.2 ++ h) = History.obeyed (r.2 ++ h) ++ st.pending
    rw [History.heard_append, History.obeyed_append, hr.heard, hr.obeyed, List.append_nil,
      List.append_nil]
    exact hh
  · show History.dropped (r.2 ++ h) = []
    rw [History.dropped_append, hr.dropped, hn hdrained, List.append_nil]

theorem Reached.orderly {w : World κ τ} (hw : w.Reached) : w.Orderly :=
  reached_invariant (fun _ _ _ _ _ => ⟨fun _ => rfl, rfl, rfl, fun _ => rfl⟩)
    (fun _ _ _ ha ho => ho.thread ha) (fun w a _ ho => ho.host (w.session.hosted a)) hw

end World

/-! ## what comes after what -/

namespace Mark

/-- neither the end of the loop nor what leads to it -/
def calm (m : Mark) : Bool := !m.ends && m != .heard .shutdown

/-- whether `n` may come after the mark -/
def allows (m n : Mark) : Bool :=
  n.trails || m.calm || (m == .heard .shutdown && n == .obeyed .shutdown none)

variable {m n : Mark}

theorem not_ends_of_calm (h : m.calm = true) : m.ends = false := by
  simp only [calm, Bool.and_eq_true, Bool.not_eq_true'] at h
  exact h.1

theorem calm_of_trails (h : m.trails = true) : m.calm = true := by
  cases m <;> first | rfl | cases h

theorem allows_of_calm (h : m.calm = true) (n : Mark) : m.allows n = true := by simp [allows, h]

theorem allows_of_trails (h : n.trails = true) (m : Mark) : m.allows n = true := by simp [allows, h]

theorem allows_obeyed_shutdown (h : m.ends = false) : m.allows (.obeyed .shutdown none) = true := by
  by_cases hm : m = .heard .shutdown
  · subst hm
    rfl
  · exact allows_of_calm (by simp [calm, h, hm]) _

theorem trails_of_allows (he : m.ends = true) (h : m.allows n = true) : n.trails = true := by
  have hm : m ≠ .heard .shutdown := fun heq => by
    rw [heq] at he
    cases he
  simpa [allows, calm, he, hm] using h

theorem trails_or_obeyed_of_allows (h : allows (.heard .shutdown) n = true) :
    n.trails = true ∨ n = .obeyed .shutdown none := by
  simpa [allows, calm] using h

end Mark

namespace Stage

variable {τ : Type}

def breaks : Stage τ → Bool
  | .halting _ => true
  | st => st.ended

def bears : Stage τ → Mark → Bool
  | .obeying _ .shutdown, m => !m.ends
  | .halting _, _ | .leaving _, _ | .closing _, _ | .stopped _, _ => true
  | _, m => m.calm

theorem bears_of_calm {m : Mark} (h : m.calm = true) (st : Stage τ) : st.bears m = true := by
  have hends := Mark.not_ends_of_calm h
  cases st with
  | obeying b x => cases x <;> simp [bears, h, hends]
  | _ => simp [bears, h]

/-- once the loop is being left, no message waits to be obeyed -/
theorem pending_of_bears {m : Mark} (he : m.ends = true) {st : Stage τ} (h : st.bears m = true) :
    st.pending = [] := by
  cases st with
  | obeying b x => cases x <;> simp [bears, Mark.calm, he] at h
  | _ => rfl

/-- in the midst of an iteration, nothing has ended the loop -/
theorem ends_of_bears {m : Mark} {st : Stage τ} (hst : st.breaks = false)
    (h : st.bears m = true) : m.ends = false := by
  cases st with
  | obeying b x => cases x <;> first | exact Mark.not_ends_of_calm h | simpa [bears] using h
  | halting e => cases hst
  | leaving r => cases hst
  | closing r => cases hst
  | stopped r => cases hst
  | _ => exact Mark.not_ends_of_calm h

theorem bears_obeying {x : Message} (hx : x ≠ .shutdown) (b : τ) (m : Mark) :
    (obeying b x).bears m = m.calm := by
  cases x with
  | shutdown => exact absurd rfl hx
  | _ => rfl

end Stage

namespace World

variable {κ τ : Type}

structure Trails (w : World κ τ) : Prop where
  bears : ∀ m ∈ w.history, w.stage.bears m = true
  allows : w.history.Pairwise fun n m => m.allows n = true

section
variable {s t : Session κ τ} {st st' : Stage τ} {h ms : History}

theorem Trails.step (hw : Trails ⟨s, st, h⟩) (hold : ∀ m, st.bears m = true → st'.bears m = true)
    (hnew : ∀ n ∈ ms, st'.bears n = true ∧ ∀ m, st.bears m = true → m.allows n = true)
    (hms : ms.Pairwise fun n m => m.allows n = true) : Trails ⟨t, st', ms ++ h⟩ := by
  obtain ⟨hbears, hallows⟩ := hw
  refine ⟨fun m hm => ?_, ?_⟩
  · rcases List.mem_append.mp hm with hm | hm
    · exact (hnew m hm).1
    · exact hold m (hbears m hm)
  · exact List.pairwise_append.mpr ⟨hms, hallows, fun n hn m hm => (hnew n hn).2 m (hbears m hm)⟩

theorem Trails.calm (hw : Trails ⟨s, st, h⟩) (hst : ∀ m, st.bears m = m.calm)
    (hnew : ∀ n ∈ ms, st'.bears n = true) (hms : ms.Pairwise fun n m => m.allows n = true) :
    Trails ⟨t, st', ms ++ h⟩ := by
  refine hw.step (fun m hm => Stage.bears_of_calm ?_ st') (fun n hn => ⟨hnew n hn, fun m hm => ?_⟩)
    hms
  · rwa [← hst]
  · rw [hst] at hm
    exact Mark.allows_of_calm hm n

theorem Trails.trail (hw : Trails ⟨s, st, h⟩) (hold : ∀ m, st.bears m = true → st'.bears m = true)
    (hms : ∀ n ∈ ms, n.trails = true) : Trails ⟨t, st', ms ++ h⟩ :=
  hw.step hold
    (fun n hn => ⟨Stage.bears_of_calm (Mark.calm_of_trails (hms n hn)) st',
      fun m _ => Mark.allows_of_trails (hms n hn) m⟩)
    (List.pairwise_of_forall_mem_list fun n hn m _ => Mark.allows_of_trails (hms n hn) m)

theorem Trails.obey {b : τ} {x : Message} {e : Option Escape} (hw : Trails ⟨s, .obeying b x, h⟩)
    (hx : x = .shutdown → e = none) (hst : st'.bears (.obeyed x e) = true)
    (hstop : x = .shutdown → ∀ m, st'.bears m = true) : Trails ⟨t, st', .obeyed x e :: h⟩ := by
  by_cases hshut : x = .shutdown
  · obtain rfl := hx hshut
    subst hshut
    show Trails ⟨t, st', [.obeyed .shutdown none] ++ h⟩
    refine hw.step (fun m _ => hstop rfl m) ?_
      (List.pairwise_singleton ..)
    intro n hn
    cases List.mem_singleton.mp hn
    refine ⟨hst, fun m hm => Mark.allows_obeyed_shutdown ?_⟩
    simpa [Stage.bears] using hm
  · show Trails ⟨t, st', [.obeyed x e] ++ h⟩
    exact hw.calm (Stage.bears_obeying hshut b)
      (fun n hn => List.mem_singleton.mp hn ▸ hst) (List.pairwise_singleton ..)

theorem Trails.host {w : World κ τ} (hw : w.Trails) {r : Session κ τ × History}
    (hr : w.session.Hosted r) : Trails ⟨r.1, w.stage, r.2 ++ w.history⟩ :=
  Trails.trail hw (fun _ hm => hm) fun n hn => Mark.trails_of_isHost (hr.marks n hn)

end

theorem Trails.after {w : World κ τ} (hw : w.Trails) {after before : History} {m : Mark}
    (hm : w.history = after ++ m :: before) : ∀ n ∈ after, m.allows n = true := by
  have hallows := hw.allows
  rw [hm] at hallows
  exact fun n hn => (List.pairwise_append.mp hallows).2.2 n hn m List.mem_cons_self

/-- nothing is heard or obeyed after what ends the loop -/
theorem Trails.nothing_after {w : World κ τ} (hw : w.Trails) {after before : History} {m : Mark}
    (hm : w.history = after ++ m :: before) (he : m.ends = true) :
    (∀ n ∈ after, n.trails = true) ∧ after.heard = [] ∧ after.obeyed = [] := by
  have htrails (n : Mark) (hn : n ∈ after) : n.trails = true :=
    Mark.trails_of_allows he (hw.after hm n hn)
  exact ⟨htrails, History.messages_eq_nil fun n hn => Mark.hears_of_trails (htrails n hn),
    History.messages_eq_nil fun n hn => Mark.obeys_of_trails (htrails n hn)⟩

/-- the loop is left for one thing only -/
theorem Trails.ends_unique {w : World κ τ} (hw : w.Trails) {m n : Mark} (hm : m ∈ w.history)
    (hn : n ∈ w.history) (hme : m.ends = true) (hne : n.ends = true) : m = n := by
  by_contra hmn
  have hapart : w.history.Pairwise fun n m => ¬(n.ends = true ∧ m.ends = true) := by
    refine hw.allows.imp fun {n m} hallow hboth => ?_
    have htrails := Mark.trails_of_allows hboth.2 hallow
    exact absurd hboth.1 (ne_true_of_eq_false (Mark.ends_of_trails htrails))
  have hsymm : Std.Symm fun n m : Mark => ¬(n.ends = true ∧ m.ends = true) :=
    ⟨fun n m hnm hboth => hnm hboth.symm⟩
  exact hapart.forall hm hn hmn ⟨hme, hne⟩

variable [Time τ] [Clock κ τ]

theorem Trails.thread {w : World κ τ} (hw : w.Trails) {a : Advance κ τ}
    (ha : w.session.Advances w.stage a) : Trails ⟨a.session, a.stage, a.marks ++ w.history⟩ := by
  obtain ⟨s, st, (h : History)⟩ := w
  cases ha with
  | @hears x rest c hq =>
    refine hw.calm (fun _ => rfl) ?_ (by simp [Mark.allows, Mark.calm, Mark.ends, Mark.escape])
    have hx : (Stage.obeying s.readClock.1 x).bears (.heard x) = true := by cases x <;> rfl
    have hbegan : (Stage.obeying s.readClock.1 x).bears .began = true := by cases x <;> rfl
    simp [hx, hbegan]
  | hearsNothing hq =>
    exact hw.calm (fun _ => rfl) (by simp; exact ⟨rfl, rfl⟩)
      (by simp [Mark.allows, Mark.calm, Mark.ends, Mark.escape])
  | goesOn hc => exact hw.trail (fun _ hm => hm) (List.forall_mem_nil _)
  | disconnects hc => exact hw.calm (fun _ => rfl) (fun _ _ => rfl) (List.pairwise_singleton ..)
  | @obeys b x t ht hr =>
    have hx : x ≠ .shutdown := by
      rintro rfl
      cases ht
      cases hr
    exact hw.obey (fun _ => rfl) (by cases x <;> first | rfl | exact absurd rfl hx)
      fun hshut => absurd hshut hx
  | @quits b x t ht hr => exact hw.obey (fun _ => rfl) rfl fun _ _ => rfl
  | @obeysNot b x t e ht =>
    have hx : x ≠ .shutdown := by
      rintro rfl
      cases ht
    exact hw.obey (fun hshut => absurd hshut hx) rfl fun hshut => absurd hshut hx
  | rests hp => exact hw.trail (fun _ hm => hm) (List.forall_mem_nil _)
  | due hp hd => exact hw.trail (fun _ hm => hm) (List.forall_mem_nil _)
  | notDue hp hd => exact hw.trail (fun _ hm => hm) (List.forall_mem_nil _)
  | counts ht =>
    exact hw.calm (fun _ => rfl) (List.forall_mem_singleton.mpr rfl)
      (List.pairwise_singleton ..)
  | countsNot ht => exact hw.calm (fun _ => rfl) (fun _ _ => rfl) (List.pairwise_singleton ..)
  | steps ht =>
    exact hw.calm (fun _ => rfl) (List.forall_mem_singleton.mpr rfl)
      (List.pairwise_singleton ..)
  | stepsNot ht => exact hw.calm (fun _ => rfl) (fun _ _ => rfl) (List.pairwise_singleton ..)
  | halts ht => exact hw.trail (fun _ _ => rfl) (List.forall_mem_nil _)
  | haltsUnheard ht => exact hw.trail (fun _ _ => rfl) (List.forall_mem_nil _)
  | waits hi hl => exact hw.trail (fun _ hm => hm) (List.forall_mem_nil _)
  | waited hi hl => exact hw.trail (fun _ hm => hm) (List.forall_mem_nil _)
  | waitsNot hi => exact hw.trail (fun _ _ => rfl) (List.forall_mem_nil _)
  | @drops r =>
    exact hw.trail (fun _ _ => rfl) (List.forall_mem_singleton.mpr rfl)
  | closes => exact hw.trail (fun _ _ => rfl) (List.forall_mem_nil _)
  | stays => exact hw.trail (fun _ _ => rfl) (List.forall_mem_nil _)

theorem Reached.trails {w : World κ τ} (hw : w.Reached) : w.Trails :=
  reached_invariant (fun _ _ _ _ _ => ⟨List.forall_mem_nil _, .nil⟩)
    (fun _ _ _ ha ht => ht.thread ha) (fun w a _ ht => ht.host (w.session.hosted a)) hw

end World

end ChipEight
