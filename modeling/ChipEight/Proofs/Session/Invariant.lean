import ChipEight.Proofs.Machine.Watched
import ChipEight.Session.Iteration

/-!
# What every iteration of a session keeps

A session does nothing to its machine that a host could not do itself, and its timer never gets out
of step with the pause.

* `Session.Works`, `Obeys`  how the work goes, and how a message is obeyed, case by case;
* `Session.Sound m s`     `s` has come to its machine from `m` by operations, and its timer runs
  exactly while that machine is not paused;
* `Sound.perform`         one more operation, the timer being right after it;
* `Sound.handle`, `.work`, `.halt`, `.iterate`  the parts of an iteration, and a whole one;
* `start_sound`           a session that begins;
* `running_iterate`       a session runs on exactly as long as its iterations say so.
-/

namespace ChipEight

theorem Machine.paused_tick (m : Machine) : m.tick.machine.paused = m.paused := by
  unfold tick note
  dsimp only
  split
  · rfl
  · split <;> rfl

namespace Stopwatch

variable {κ τ : Type} [Clock κ τ]

theorem running_startBy (w : Stopwatch τ) (c : κ) : (w.startBy c).1.running = true := by
  rcases w with ⟨_ | since, banked⟩ <;> rfl

theorem running_stopBy [Time τ] (w : Stopwatch τ) (c : κ) : (w.stopBy c).1.running = false := by
  rcases w with ⟨_ | since, banked⟩ <;> rfl

end Stopwatch

namespace Session

variable {κ τ : Type} {m : Machine} {s t : Session κ τ}

/-! ## how an iteration goes -/

section
variable [Time τ] [Clock κ τ]

inductive Works (s : Session κ τ) : Session κ τ × Except ChannelError Bool → Prop where
  | paused (hp : s.paused = true) : Works s (s, .ok true)
  | untimed {t : Session κ τ} {e : Escape} (hp : s.paused = false)
      (ht : s.timerTickIfDue = (t, .error e)) : Works s (t.halt e)
  | halted {t u : Session κ τ} {b : Bool} {e : Escape} (hp : s.paused = false)
      (ht : s.timerTickIfDue = (t, .ok b)) (hu : t.act Console.tick = (u, .error e)) :
      Works s (u.halt e)
  | done {t u : Session κ τ} {b b' : Bool} (hp : s.paused = false)
      (ht : s.timerTickIfDue = (t, .ok b)) (hu : t.act Console.tick = (u, .ok b')) :
      Works s (u, .ok true)

theorem works (s : Session κ τ) : s.Works s.work := by
  cases hp : s.paused with
  | true =>
    rw [work_paused hp]
    exact .paused hp
  | false =>
    rcases ht : s.timerTickIfDue with ⟨t, e | b⟩
    · rw [work_untimed hp ht]
      exact .untimed hp ht
    · rcases hu : t.act Console.tick with ⟨u, e | b'⟩
      · rw [work_halted hp ht hu]
        exact .halted hp ht hu
      · rw [work_done hp ht hu]
        exact .done hp ht hu

inductive Obeys (s : Session κ τ) (x : Message) :
    Session κ τ × Except ChannelError Bool → Prop where
  | halted {t : Session κ τ} {e : Escape} (ht : s.handle x = (t, some e)) : Obeys s x (t.halt e)
  | stopped {t : Session κ τ} (ht : s.handle x = (t, none)) (hr : t.running = false) :
      Obeys s x (t, .ok false)
  | going {t : Session κ τ} (ht : s.handle x = (t, none)) (hr : t.running = true) :
      Obeys s x t.work

theorem obeys (s : Session κ τ) (x : Message) : s.Obeys x (s.obey x) := by
  rcases ht : s.handle x with ⟨t, _ | e⟩
  · cases hr : t.running with
    | true =>
      rw [obey_going ht hr]
      exact .going ht hr
    | false =>
      rw [obey_stopped ht hr]
      exact .stopped ht hr
  · rw [obey_halted ht]
    exact .halted ht

end

structure Sound (m : Machine) (s : Session κ τ) : Prop where
  timer : s.timer.running = !s.paused
  machine : ∃ ops, s.machine = m.run ops
  logs : s.LogsAll

theorem Sound.perform (h : s.Sound m) (o : Op) (ht : t.machine = (s.machine.perform o).1)
    (htimer : t.timer.running = !t.paused) (hlog : t.refuses = s.refuses) : t.Sound m := by
  obtain ⟨ops, hops⟩ := h.machine
  refine ⟨htimer, ⟨ops ++ [o], ?_⟩, fun e => (congrFun hlog e).trans (h.logs e)⟩
  rw [ht, hops, Machine.run_append]
  rfl

/-! ## operations of the console -/

theorem paused_act_tick (s : Session κ τ) : (s.act Console.tick).1.paused = s.paused := by
  show (s.console.tick _).console.machine.paused = s.paused
  rw [Console.machine_tick, Machine.paused_tick]
  rfl

theorem Sound.act_tick (h : s.Sound m) : (s.act Console.tick).1.Sound m := by
  refine h.perform .tick (Console.machine_tick _ _) ?_ rfl
  rw [paused_act_tick]
  exact h.timer

theorem Sound.act_tick60 (h : s.Sound m) : (s.act Console.tick60).1.Sound m :=
  h.perform .tick60 rfl h.timer rfl

/-! ## the parts of an iteration -/

theorem Sound.halt (h : s.Sound m) (e : Escape) : (s.halt e).1.Sound m := by
  unfold Session.halt
  dsimp only
  split <;> exact ⟨h.timer, h.machine, h.logs⟩

variable [Time τ] [Clock κ τ]

theorem Sound.elapsed (h : s.Sound m) : s.elapsed.2.Sound m := ⟨h.timer, h.machine, h.logs⟩

/-- to restart the timer starts it, so this is for machines that are not paused -/
theorem Sound.timerTick (h : s.Sound m) (hp : s.paused = false) : s.timerTick.1.Sound m := by
  have hacted : (s.act Console.tick60).1.Sound m := h.act_tick60
  have hpaused : (s.act Console.tick60).1.paused = false := hp
  unfold Session.timerTick
  rcases hact : s.act Console.tick60 with ⟨t, e | b⟩
  · rw [hact] at hacted
    exact hacted
  · rw [hact] at hacted hpaused
    refine ⟨?_, hacted.machine, hacted.logs⟩
    show true = !t.paused
    rw [show t.paused = false from hpaused]
    rfl

theorem Sound.timerTickIfDue (h : s.Sound m) (hp : s.paused = false) :
    s.timerTickIfDue.1.Sound m := by
  unfold Session.timerTickIfDue
  dsimp only
  split
  · exact h.elapsed.timerTick hp
  · exact h.elapsed

theorem Sound.work (h : s.Sound m) : s.work.1.Sound m := by
  have hworks := s.works
  generalize s.work = r at hworks ⊢
  cases hworks with
  | paused hp => exact h
  | untimed hp ht =>
    have hdue := h.timerTickIfDue hp
    rw [ht] at hdue
    exact hdue.halt _
  | halted hp ht hu =>
    have hdue := h.timerTickIfDue hp
    rw [ht] at hdue
    have hticked := Sound.act_tick hdue
    rw [hu] at hticked
    exact hticked.halt _
  | done hp ht hu =>
    have hdue := h.timerTickIfDue hp
    rw [ht] at hdue
    have hticked := Sound.act_tick hdue
    rw [hu] at hticked
    exact hticked

/-! ## messages -/

theorem Sound.doPause (h : s.Sound m) : s.doPause.Sound m := by
  unfold Session.doPause
  split
  · exact h
  · exact h.perform .pause rfl (Stopwatch.running_stopBy _ _) rfl

omit [Time τ] in
theorem Sound.doUnpause (h : s.Sound m) : s.doUnpause.Sound m := by
  unfold Session.doUnpause
  split
  · exact h.perform .unpause rfl (Stopwatch.running_startBy _ _) rfl
  · exact h

theorem Sound.handle (h : s.Sound m) (x : Message) : (s.handle x).1.Sound m := by
  cases x with
  | pause => exact h.doPause
  | unpause => exact h.doUnpause
  | keyReleased k =>
    refine h.perform (.release k) rfl ?_ rfl
    show s.timer.running = !(s.machine.release k).paused
    rw [h.timer, Machine.release]
    split <;> rfl
  | save path =>
    obtain ⟨files, log, e, hdone⟩ := s.doSave_eq path
    rw [Session.handle, hdone]
    exact ⟨h.timer, h.machine, h.logs⟩
  | snapshot n =>
    obtain ⟨tickets, e, hdone⟩ := s.doSnapshot_eq n
    rw [Session.handle, hdone]
    exact ⟨h.timer, h.machine, h.logs⟩
  | _ => exact ⟨h.timer, h.machine, h.logs⟩

/-! ## whole iterations -/

theorem Sound.obey (h : s.Sound m) (x : Message) : (s.obey x).1.Sound m := by
  have hhandled : (s.handle x).1.Sound m := h.handle x
  have hobeys := s.obeys x
  generalize s.obey x = r at hobeys ⊢
  cases hobeys with
  | halted ht =>
    rw [ht] at hhandled
    exact hhandled.halt _
  | stopped ht hr =>
    rw [ht] at hhandled
    exact hhandled
  | going ht hr =>
    rw [ht] at hhandled
    exact hhandled.work

theorem Sound.iterate (h : s.Sound m) : s.iterate.1.Sound m := by
  have hlinked (link : Link Message) : Sound m { s with link } := ⟨h.timer, h.machine, h.logs⟩
  rcases hr : s.link.receive .session with ⟨_ | _ | x, link⟩
  · rw [iterate_disconnected hr]
    exact ⟨h.timer, h.machine, h.logs⟩
  · rw [iterate_idle hr]
    exact (hlinked link).work
  · rw [iterate_message hr]
    exact (hlinked link).obey x

omit [Time τ] [Clock κ τ] in
theorem running_halt (s : Session κ τ) (e : Escape) :
    (s.halt e).1.running = true ↔ (s.halt e).2 = .ok true := by
  unfold halt
  dsimp only
  split <;> exact ⟨nofun, nofun⟩

theorem running_timerTick (s : Session κ τ) : s.timerTick.1.running = s.running := by
  have hacted : (s.act Console.tick60).1.running = s.running := rfl
  unfold timerTick
  rcases hact : s.act Console.tick60 with ⟨t, e | b⟩ <;> rw [hact] at hacted <;> exact hacted

theorem running_timerTickIfDue (s : Session κ τ) : s.timerTickIfDue.1.running = s.running := by
  unfold timerTickIfDue
  dsimp only
  split
  · exact running_timerTick _
  · rfl

theorem running_work (h : s.running = true) : s.work.1.running = true ↔ s.work.2 = .ok true := by
  have hdue : s.timerTickIfDue.1.running = true := (running_timerTickIfDue s).trans h
  have hworks := s.works
  generalize s.work = r at hworks ⊢
  cases hworks with
  | paused hp => exact ⟨fun _ => rfl, fun _ => h⟩
  | untimed hp ht => exact running_halt _ _
  | halted hp ht hu => exact running_halt _ _
  | @done t u b b' hp ht hu =>
    rw [ht] at hdue
    have hticked : (t.act Console.tick).1.running = true := hdue
    rw [hu] at hticked
    exact ⟨fun _ => rfl, fun _ => hticked⟩

theorem running_obey (s : Session κ τ) (x : Message) :
    (s.obey x).1.running = true ↔ (s.obey x).2 = .ok true := by
  have hobeys := s.obeys x
  generalize s.obey x = r at hobeys ⊢
  cases hobeys with
  | halted ht => exact running_halt _ _
  | stopped ht hr => exact ⟨fun hrun => absurd hrun (ne_true_of_eq_false hr), nofun⟩
  | going ht hr => exact running_work hr

theorem running_iterate (h : s.running = true) :
    s.iterate.1.running = true ↔ s.iterate.2 = .ok true := by
  rcases hr : s.link.receive .session with ⟨_ | _ | x, link⟩
  · rw [iterate_disconnected hr]
    exact ⟨nofun, nofun⟩
  · rw [iterate_idle hr]
    exact running_work h
  · rw [iterate_message hr]
    exact running_obey _ x

end Session

end ChipEight
