import ChipEight.Proofs.Session.KeyRelease
import ChipEight.Proofs.Session.Pause
import ChipEight.Proofs.Session.Readings
import Mathlib.Data.Nat.Cast.Order.Ring
import Mathlib.Tactic.Linarith

/-!
# How often the timers tick

Only the time that is not spent in a pause lets the timers tick, and none of it is made up for.

* `Session.heed s`       the session after the message of an iteration, and whether the work comes;
* `Session.counts s`     the timers tick in the iteration;
* `Session.call`, `calls`  what the host does before an iteration and the iteration; many of them;
* `Session.awake s t`    the time that was not spent in a pause, from the last reading of the clock
  in `s` to that in `t`;
* `awakeOver`, `ticks`   that time, and the ticks of the timers, over many calls;
* `Session.Ticking d s`  what a session keeps whose timers need the time `d` for a tick;
* `Session.level s`      the time that the stopwatch of the timers shows;
* `timers_spaced`        the bounds for all calls.

The stopwatch shows the time awake since the last tick, which is why a tick costs at least the
interval: it is taken from what the stopwatch shows, and what is left over is dropped.
-/

namespace ChipEight

namespace Session

section
variable {κ τ : Type} [Time τ] [Clock κ τ]

/-! ## an iteration up to its work -/

def heed (s : Session κ τ) : Session κ τ × Bool :=
  match s.link.receive .session with
  | (.error _, link) => ({ s with link, running := false }, false)
  | (.ok none, link) => ({ s with link }, true)
  | (.ok (some x), link) =>
    let r := { s with link }.handle x
    (r.1, r.2.isNone && r.1.running)

def isDue (s : Session κ τ) : Bool := Time.le s.timerInterval s.elapsed.1

def counts (s : Session κ τ) : Bool := s.heed.2 && !s.heed.1.paused && s.heed.1.isDue

variable {s : Session κ τ} {link : Link Message}

theorem heed_disconnected {e : ChannelError} (h : s.link.receive .session = (.error e, link)) :
    s.heed = ({ s with link, running := false }, false) := by
  rw [heed, h]

theorem heed_idle (h : s.link.receive .session = (.ok none, link)) :
    s.heed = ({ s with link }, true) := by
  rw [heed, h]

theorem heed_message {x : Message} {t : Session κ τ} {e : Option Escape}
    (h : s.link.receive .session = (.ok (some x), link))
    (ht : { s with link }.handle x = (t, e)) : s.heed = (t, e.isNone && t.running) := by
  rw [heed, h]
  dsimp only
  rw [ht]

/-- what comes after the message is the work, or nothing, or that the message halts the session -/
theorem iterate_heed (s : Session κ τ) :
    (s.heed.2 = true ∧ s.iterate = s.heed.1.work) ∨
      (s.heed.2 = false ∧ (s.iterate.1 = s.heed.1 ∨ ∃ e, s.iterate.1 = (s.heed.1.halt e).1)) := by
  rcases hr : s.link.receive .session with ⟨_ | _ | x, link⟩
  · rw [iterate_disconnected hr, heed_disconnected hr]
    exact .inr ⟨rfl, .inl rfl⟩
  · rw [iterate_idle hr, heed_idle hr]
    exact .inl ⟨rfl, rfl⟩
  · rw [iterate_message hr]
    rcases ht : { s with link }.handle x with ⟨t, _ | e⟩ <;> rw [heed_message hr ht]
    · cases hrun : t.running with
      | true =>
        rw [obey_going ht hrun]
        exact .inl ⟨rfl, rfl⟩
      | false =>
        rw [obey_stopped ht hrun]
        exact .inr ⟨rfl, .inl rfl⟩
    · rw [obey_halted ht]
      exact .inr ⟨rfl, .inr ⟨e, rfl⟩⟩

theorem machine_heed (s : Session κ τ) :
    s.heed.1.machine = s.machine ∨ ∃ x, s.heed.1.machine = s.machine.hear x := by
  rcases hr : s.link.receive .session with ⟨_ | _ | x, link⟩
  · rw [heed_disconnected hr]
    exact .inl rfl
  · rw [heed_idle hr]
    exact .inl rfl
  · rcases ht : { s with link }.handle x with ⟨t, e⟩
    rw [heed_message hr ht]
    exact .inr ⟨x, machine_handle (s := { s with link }) ht⟩

/-! ## calls -/

def undergoes (s : Session κ τ) (acts : List Act) : Session κ τ :=
  acts.foldl (fun s a => (s.undergo a).1) s

def call (s : Session κ τ) (acts : List Act) : Session κ τ := (s.undergoes acts).iterate.1

def calls (s : Session κ τ) (cs : List (List Act)) : Session κ τ := cs.foldl call s

def ticks (s : Session κ τ) : List (List Act) → Nat
  | [] => 0
  | c :: cs => (s.undergoes c).counts.toNat + (s.call c).ticks cs

end

/-! ## the time awake -/

/-- a pause that is on in `s` lasts until the last reading of the clock in `t`, and one that is not
begins no earlier -/
def awake (s t : Measured) : Rat := if s.paused then 0 else t.clock.last - s.clock.last

/-- the time awake during an iteration -/
def awakeDuring (s : Measured) : Rat := s.awake s.heed.1 + s.heed.1.awake s.iterate.1

/-- the time awake in an iteration until the stopwatch is looked at -/
def awakeBefore (s : Measured) : Rat := s.awake s.heed.1 + s.heed.1.awake s.heed.1.elapsed.2

def awakeOver (s : Measured) : List (List Act) → Rat
  | [] => 0
  | c :: cs => (s.undergoes c).awakeDuring + (s.call c).awakeOver cs

def level (s : Measured) : Rat := s.timer.elapsed s.clock.last

section
variable {s t : Measured}

theorem awake_paused (h : s.paused = true) (t : Measured) : s.awake t = 0 := if_pos h

theorem awake_unpaused (h : s.paused = false) (t : Measured) :
    s.awake t = t.clock.last - s.clock.last := if_neg (ne_true_of_eq_false h)

theorem awake_still (h : t.clock = s.clock) : s.awake t = 0 := by
  unfold awake
  rw [h, sub_self, ite_self]

theorem awake_mono {u : Measured} (h : t.clock.last ≤ u.clock.last) : s.awake t ≤ s.awake u := by
  cases hp : s.paused with
  | true => rw [awake_paused hp, awake_paused hp]
  | false =>
    rw [awake_unpaused hp, awake_unpaused hp]
    exact sub_le_sub_right h _

theorem awake_nonneg (h : s.clock.Since t.clock) : 0 ≤ s.awake t := by
  rw [← awake_still (s := s) (t := s) rfl]
  exact awake_mono h.last_le

end

/-! ## what passes -/

structure Ticking (d : Rat) (s : Measured) : Prop where
  timer : s.timer.running = !s.paused
  willing : s.console.Willing
  isOpen : s.link.toHost.closed = false
  interval : s.timerInterval = d

/-- time passes from `s` to `t`, and the stopwatch shows how much of it was not spent in a pause -/
structure Passes (d : Rat) (s t : Measured) : Prop where
  ticking : t.Ticking d
  level : t.level = s.level + s.awake t
  clock : s.clock.Since t.clock

/-- nothing happens to the stopwatch, nor to what its ticks need -/
structure Keeps (s t : Measured) : Prop where
  clock : t.clock = s.clock
  timer : t.timer = s.timer
  timerInterval : t.timerInterval = s.timerInterval
  watchers : t.console.watchers = s.console.watchers
  toHost : t.link.toHost.closed = s.link.toHost.closed
  paused : t.paused = s.paused

section
variable {d : Rat} {s t u : Measured}

theorem Keeps.refl (s : Measured) : s.Keeps s := ⟨rfl, rfl, rfl, rfl, rfl, rfl⟩

theorem Keeps.trans (h : s.Keeps t) (h' : t.Keeps u) : s.Keeps u :=
  ⟨h'.clock.trans h.clock, h'.timer.trans h.timer, h'.timerInterval.trans h.timerInterval,
    h'.watchers.trans h.watchers, h'.toHost.trans h.toHost, h'.paused.trans h.paused⟩

theorem Ticking.keeps (h : s.Ticking d) (hk : s.Keeps t) : t.Ticking d := by
  refine ⟨?_, fun name what hmem => h.willing name what (hk.watchers ▸ hmem),
    hk.toHost.trans h.isOpen, hk.timerInterval.trans h.interval⟩
  rw [hk.timer, hk.paused]
  exact h.timer

theorem Keeps.level (h : s.Keeps t) : t.level = s.level := by
  rw [Session.level, Session.level, h.clock, h.timer]

theorem Passes.keeps (h : Passes d s t) (hk : t.Keeps u) : Passes d s u := by
  refine ⟨h.ticking.keeps hk, ?_, hk.clock ▸ h.clock⟩
  rw [hk.level, h.level, awake, awake, hk.clock]

theorem Keeps.passes (h : s.Keeps t) (hs : s.Ticking d) : Passes d s t := by
  refine ⟨hs.keeps h, ?_, h.clock ▸ .refl _⟩
  rw [h.level, awake_still h.clock, add_zero]

theorem Passes.level_le (h : Passes d s t) : s.level ≤ t.level := by
  rw [h.level]
  exact le_add_of_nonneg_right (awake_nonneg h.clock)

theorem Draws.closed {κ τ : Type} {s t : Session κ τ} (h : s.Draws t) :
    t.link.toHost.closed = s.link.toHost.closed := by
  obtain ⟨n, hn⟩ := h.outbox
  rw [hn]
  rfl

theorem Keeps.act_tick (s : Measured) : s.Keeps (s.act Console.tick).1 :=
  ⟨rfl, rfl, rfl, Console.watchers_tick _ _, (Draws.act_tick (Prod.eta _).symm).closed,
    paused_act_tick s⟩

theorem Keeps.act_tick60 (s : Measured) : s.Keeps (s.act Console.tick60).1 :=
  ⟨rfl, rfl, rfl, rfl, (Draws.act_tick60 s).closed, rfl⟩

theorem Keeps.halt (s : Measured) (e : Escape) : s.Keeps (s.halt e).1 := by
  unfold Session.halt
  dsimp only
  split
  · rename_i link hsent
    refine ⟨rfl, rfl, rfl, rfl, ?_, rfl⟩
    rw [Link.eq_of_send hsent]
    rfl
  · exact ⟨rfl, rfl, rfl, rfl, rfl, rfl⟩

theorem Keeps.undergo (s : Measured) (a : Act) : s.Keeps (s.undergo a).1 := by
  cases a with
  | tell x =>
    unfold Session.undergo
    dsimp only
    split <;> exact ⟨rfl, rfl, rfl, rfl, rfl, rfl⟩
  | ask t =>
    unfold Session.undergo
    dsimp only
    split <;> exact ⟨rfl, rfl, rfl, rfl, rfl, rfl⟩
  | _ => exact ⟨rfl, rfl, rfl, rfl, rfl, rfl⟩

theorem Keeps.undergoes (s : Measured) (acts : List Act) : s.Keeps (s.undergoes acts) := by
  induction acts generalizing s with
  | nil => exact .refl s
  | cons a acts ih => exact (Keeps.undergo s a).trans (ih _)

end

namespace Ticking

variable {d : Rat} {s t : Measured}

theorem running (h : s.Ticking d) (hp : s.paused = false) : s.timer.running = true := by
  rw [h.timer, hp]
  rfl

theorem standing (h : s.Ticking d) (hp : s.paused = true) : s.timer.running = false := by
  rw [h.timer, hp]
  rfl

/-! ## messages -/

theorem doPause (h : s.Ticking d) : Passes d s s.doPause := by
  unfold Session.doPause
  split
  · exact (Keeps.refl s).passes h
  · rename_i hp
    have hrun := h.running (eq_false_of_ne_true hp)
    have hdone : (s.mapMachine Machine.pause).pauseTimer =
        { s.mapMachine Machine.pause with
          timer := s.timer.stop s.clock.next
          clock := s.clock.step } := by
      show Session.mk _ _ (s.timer.stopBy s.clock).2 (s.timer.stopBy s.clock).1 .. = _
      rw [Stopwatch.stopBy_of_running hrun]
    rw [hdone]
    refine ⟨⟨Stopwatch.running_stop _ _, h.willing, h.isOpen, h.interval⟩, ?_, s.clock.since_step⟩
    rw [awake_unpaused (eq_false_of_ne_true hp)]
    exact (Stopwatch.elapsed_stop _ _).trans (Stopwatch.elapsed_of_running hrun _ _)

theorem doUnpause (h : s.Ticking d) : Passes d s s.doUnpause := by
  unfold Session.doUnpause
  split
  · rename_i hp
    have hstand := h.standing hp
    have hdone : (s.mapMachine Machine.unpause).resumeTimer =
        { s.mapMachine Machine.unpause with
          timer := s.timer.start s.clock.next
          clock := s.clock.step } := by
      show Session.mk _ _ (s.timer.startBy s.clock).2 (s.timer.startBy s.clock).1 .. = _
      rw [Stopwatch.startBy_of_standing hstand]
    rw [hdone]
    refine ⟨⟨Stopwatch.running_start _ _, h.willing, h.isOpen, h.interval⟩, ?_, s.clock.since_step⟩
    rw [awake_paused hp, add_zero]
    exact (Stopwatch.elapsed_start _ _).trans (Stopwatch.elapsed_of_standing hstand _ _)
  · exact (Keeps.refl s).passes h

theorem handle (h : s.Ticking d) {x : Message} {e : Option Escape} (ht : s.handle x = (t, e)) :
    Passes d s t := by
  obtain rfl : (s.handle x).1 = t := congrArg Prod.fst ht
  cases x with
  | pause => exact h.doPause
  | unpause => exact h.doUnpause
  | save path =>
    refine Keeps.passes ?_ h
    show s.Keeps (s.doSave path).1
    obtain ⟨files, log, e, hdone⟩ := s.doSave_eq path
    rw [hdone]
    exact ⟨rfl, rfl, rfl, rfl, rfl, rfl⟩
  | snapshot n =>
    refine Keeps.passes ?_ h
    show s.Keeps (s.doSnapshot n).1
    obtain ⟨tickets, e, hdone⟩ := s.doSnapshot_eq n
    rw [hdone]
    exact ⟨rfl, rfl, rfl, rfl, rfl, rfl⟩
  | keyReleased k =>
    refine Keeps.passes ⟨rfl, rfl, rfl, rfl, rfl, ?_⟩ h
    show (s.machine.release k).paused = s.machine.paused
    unfold Machine.release
    split <;> rfl
  | _ => exact Keeps.passes ⟨rfl, rfl, rfl, rfl, rfl, rfl⟩ h

theorem heed (h : s.Ticking d) : Passes d s s.heed.1 := by
  have hlink {r : Except ChannelError (Option Message)} {link : Link Message}
      (hr : s.link.receive .session = (r, link)) : s.Keeps { s with link } := by
    obtain rfl : (s.link.receive .session).2 = link := congrArg Prod.snd hr
    exact ⟨rfl, rfl, rfl, rfl, rfl, rfl⟩
  rcases hr : s.link.receive .session with ⟨_ | _ | x, link⟩
  · rw [heed_disconnected hr]
    exact (Keeps.passes (hlink hr) h).keeps ⟨rfl, rfl, rfl, rfl, rfl, rfl⟩
  · rw [heed_idle hr]
    exact (hlink hr).passes h
  · rcases ht : { s with link }.handle x with ⟨t, e⟩
    rw [heed_message hr ht]
    have hpass := (h.keeps (hlink hr)).handle ht
    exact ⟨hpass.ticking, hpass.level, hpass.clock⟩

/-! ## work -/

theorem elapsed (h : s.Ticking d) (hp : s.paused = false) :
    Passes d s s.elapsed.2 ∧ s.elapsed.1 = s.level + s.awake s.elapsed.2 := by
  have hrun := h.running hp
  have hread : s.elapsed = (s.timer.elapsed s.clock.next, { s with clock := s.clock.step }) := by
    rw [Session.elapsed, Stopwatch.elapsedBy_of_running hrun]
  have hshows : s.timer.elapsed s.clock.next =
      s.level + s.awake { s with clock := s.clock.step } := by
    rw [awake_unpaused hp]
    exact Stopwatch.elapsed_of_running hrun _ _
  rw [hread]
  exact ⟨⟨⟨h.timer, h.willing, h.isOpen, h.interval⟩, hshows, s.clock.since_step⟩, hshows⟩

/-- the tick of the timers, from which on the stopwatch shows the time anew -/
theorem timerTick (h : s.Ticking d) (hp : s.paused = false) :
    ∃ t v, s.timerTick = (t, .ok v) ∧ t.Ticking d ∧ t.level = 0 ∧ s.Ages t ∧
      t.machine = s.machine.tick60 := by
  rcases ht : s.timerTick with ⟨t, e | v⟩
  · exact absurd ht (timerTick_ok h.willing h.isOpen)
  · refine ⟨t, v, rfl, ?_⟩
    have hage := Ages.timerTick ht
    have hmachine := machine_timerTick ht
    have hpaused : t.paused = false := by
      rw [Session.paused, hmachine]
      exact hp
    have hacted := h.keeps (Keeps.act_tick60 s)
    unfold Session.timerTick at ht
    rcases hact : s.act Console.tick60 with ⟨u, e | v'⟩ <;> rw [hact] at ht hacted <;> cases ht
    refine ⟨⟨?_, hacted.willing, hacted.isOpen, hacted.interval⟩, ?_, hage, hmachine⟩
    · rw [hpaused]
      rfl
    · show 0 + (u.clock.next - u.clock.next) = 0
      rw [sub_self, add_zero]

theorem work_after {b : Bool} (hp : s.paused = false) (ht : s.timerTickIfDue = (t, .ok b)) :
    t.Keeps s.work.1 ∧ s.work.1.machine = t.machine.tick.machine := by
  have hkeeps := Keeps.act_tick t
  rcases hu : t.act Console.tick with ⟨u, e | b'⟩ <;> rw [hu] at hkeeps
  · rw [work_halted hp ht hu]
    refine ⟨hkeeps.trans (.halt u e), ?_⟩
    rw [← show u.machine = t.machine.tick.machine from machine_act_tick hu]
    exact congrArg Console.machine (halt_stays (Prod.eta _).symm).2.2.2.1
  · rw [work_done hp ht hu]
    exact ⟨hkeeps, machine_act_tick hu⟩

theorem work_due (h : s.Ticking d) (hp : s.paused = false) (hd : s.isDue = true) :
    s.work.1.Ticking d ∧ s.work.1.level = 0 ∧ d ≤ s.level + s.awake s.elapsed.2 ∧
      s.elapsed.2.clock.last ≤ s.work.1.clock.last ∧
      s.work.1.machine = s.machine.tick60.tick.machine := by
  obtain ⟨hlooked, hshows⟩ := h.elapsed hp
  obtain ⟨t, v, ht, hticking, hlevel, hage, hmachine⟩ := hlooked.ticking.timerTick hp
  obtain ⟨hkeeps, hticked⟩ := work_after hp ((timerTickIfDue_of_le hd).trans ht)
  have hlong : s.timerInterval ≤ s.elapsed.1 := of_decide_eq_true hd
  rw [h.interval, hshows] at hlong
  refine ⟨hticking.keeps hkeeps, hkeeps.level.trans hlevel, hlong, ?_, ?_⟩
  · rw [hkeeps.clock]
    exact hage.clock.last_le
  · rw [hticked, hmachine]
    rfl

theorem work_not_due (h : s.Ticking d) (hd : (!s.paused && s.isDue) = false) :
    Passes d s s.work.1 ∧ (s.work.1.machine = s.machine ∨
      s.paused = false ∧ s.work.1.machine = s.machine.tick.machine) := by
  cases hp : s.paused with
  | true =>
    rw [work_paused hp]
    exact ⟨(Keeps.refl s).passes h, .inl rfl⟩
  | false =>
    rw [hp] at hd
    obtain ⟨hkeeps, hticked⟩ := work_after hp (timerTickIfDue_of_not_le hd)
    exact ⟨(h.elapsed hp).1.keeps hkeeps, .inr ⟨rfl, hticked⟩⟩

/-! ## iterations -/

theorem iterate_counts (h : s.Ticking d) (hc : s.counts = true) :
    s.iterate.1.Ticking d ∧ s.iterate.1.level = 0 ∧ d ≤ s.level + s.awakeBefore ∧
      s.awakeBefore ≤ s.awakeDuring ∧ s.heed.1.paused = false ∧
      s.iterate.1.machine = s.heed.1.machine.tick60.tick.machine := by
  simp only [counts, Bool.and_eq_true, Bool.not_eq_true'] at hc
  obtain ⟨⟨hworks, hp⟩, hd⟩ := hc
  obtain ⟨-, hiterate⟩ | ⟨hno, -⟩ := s.iterate_heed
  · obtain ⟨hticking, hlevel, hlong, hlast, hmachine⟩ := h.heed.ticking.work_due hp hd
    unfold awakeDuring awakeBefore
    rw [hiterate]
    refine ⟨hticking, hlevel, ?_, add_le_add_right (awake_mono hlast) _, hp, hmachine⟩
    rw [h.heed.level, add_assoc] at hlong
    exact hlong
  · exact absurd hworks (ne_true_of_eq_false hno)

theorem iterate_idle (h : s.Ticking d) (hc : s.counts = false) :
    s.iterate.1.Ticking d ∧ s.iterate.1.level = s.level + s.awakeDuring ∧
      s.level ≤ s.iterate.1.level ∧ (s.iterate.1.machine = s.heed.1.machine ∨
        s.heed.1.paused = false ∧ s.iterate.1.machine = s.heed.1.machine.tick.machine) := by
  have hpasses : Passes d s.heed.1 s.iterate.1 ∧ (s.iterate.1.machine = s.heed.1.machine ∨
      s.heed.1.paused = false ∧ s.iterate.1.machine = s.heed.1.machine.tick.machine) := by
    obtain ⟨hworks, hiterate⟩ | ⟨-, hstop | ⟨e, hhalt⟩⟩ := s.iterate_heed
    · rw [counts, hworks, Bool.true_and] at hc
      rw [hiterate]
      exact h.heed.ticking.work_not_due hc
    · rw [hstop]
      exact ⟨(Keeps.refl _).passes h.heed.ticking, .inl rfl⟩
    · rw [hhalt]
      refine ⟨(Keeps.halt _ e).passes h.heed.ticking, .inl ?_⟩
      exact congrArg Console.machine (halt_stays (Prod.eta _).symm).2.2.2.1
  refine ⟨hpasses.1.ticking, ?_, h.heed.level_le.trans hpasses.1.level_le, hpasses.2⟩
  rw [hpasses.1.level, h.heed.level, add_assoc, awakeDuring]

/-! ## calls -/

theorem undergoes (h : s.Ticking d) (acts : List Act) : (s.undergoes acts).Ticking d :=
  h.keeps (.undergoes s acts)

theorem call (h : s.Ticking d) (hl : 0 ≤ s.level) (acts : List Act) :
    (s.call acts).Ticking d ∧ 0 ≤ (s.call acts).level ∧
      (s.undergoes acts).counts.toNat * d + (s.call acts).level ≤
        s.level + (s.undergoes acts).awakeDuring := by
  have hready := h.undergoes acts
  rw [← (Keeps.undergoes s acts).level] at hl ⊢
  cases hc : (s.undergoes acts).counts with
  | true =>
    obtain ⟨hticking, hlevel, hlong, hbefore, -⟩ := hready.iterate_counts hc
    have hzero : (s.call acts).level = 0 := hlevel
    refine ⟨hticking, hzero.ge, ?_⟩
    rw [hzero, Bool.toNat_true, Nat.cast_one, one_mul, add_zero]
    exact hlong.trans (add_le_add_right hbefore _)
  | false =>
    obtain ⟨hticking, hlevel, hle, -⟩ := hready.iterate_idle hc
    refine ⟨hticking, hl.trans hle, ?_⟩
    rw [Bool.toNat_false, Nat.cast_zero, zero_mul, zero_add]
    exact hlevel.le

theorem calls (h : s.Ticking d) (hl : 0 ≤ s.level) (cs : List (List Act)) :
    (s.calls cs).Ticking d ∧ 0 ≤ (s.calls cs).level ∧
      s.ticks cs * d + (s.calls cs).level ≤ s.level + s.awakeOver cs := by
  induction cs generalizing s with
  | nil =>
    refine ⟨h, hl, le_of_eq ?_⟩
    show ((0 : Nat) : Rat) * d + s.level = s.level + 0
    rw [Nat.cast_zero, zero_mul, zero_add, add_zero]
  | cons c cs ih =>
    obtain ⟨hcalled, hlevel, hpaid⟩ := h.call hl c
    obtain ⟨hticking, hnonneg, hrest⟩ := ih hcalled hlevel
    refine ⟨hticking, hnonneg, ?_⟩
    show (((s.undergoes c).counts.toNat + (s.call c).ticks cs : Nat) : Rat) * d +
        ((s.call c).calls cs).level ≤
      s.level + ((s.undergoes c).awakeDuring + (s.call c).awakeOver cs)
    rw [Nat.cast_add, add_mul]
    linarith

end Ticking

theorem start_ticking {c : Console} {link : Link Message} (hp : c.machine.paused = false)
    (hc : c.Willing) (ho : link.toHost.closed = false) (clock : Readings)
    (tickInterval : Option Rat) (d : Rat) (files : Files) :
    (start c link clock tickInterval d files).Ticking d ∧
      (start c link clock tickInterval d files).level = 0 := by
  refine ⟨⟨?_, ?_, ho, rfl⟩, ?_⟩
  · show true = !c.machine.paused
    rw [hp]
    rfl
  · intro name what hmem
    rcases List.mem_append.mp hmem with hold | hnew
    · exact hc name what hold
    · cases List.mem_singleton.mp hnew
  · show 0 + (clock.next - clock.next) = 0
    rw [sub_self, add_zero]

/-- of a session that is not paused when it starts and whose watchers refuse nothing: the ticks of
the timers take no more time than there was awake; an iteration has at most one of them, before its
instruction, and none in a pause; and from any of them to any later one the time awake is at least
the interval -/
theorem timers_spaced {c : Console} {link : Link Message} {d : Rat}
    (hp : c.machine.paused = false) (hc : c.Willing) (ho : link.toHost.closed = false)
    (hd : 0 < d) (clock : Readings) (tickInterval : Option Rat) (files : Files)
    (before : List (List Act)) (acts : List Act) :
    let s := start c link clock tickInterval d files
    let r := (s.calls before).undergoes acts
    let m := r.heed.1.machine
    s.ticks before * d ≤ s.awakeOver before ∧
      (m = r.machine ∨ ∃ x, m = r.machine.hear x) ∧
      (r.counts = false → r.iterate.1.machine = m ∨
        m.paused = false ∧ r.iterate.1.machine = m.tick.machine) ∧
      (r.counts = true → m.paused = false ∧ r.iterate.1.machine = m.tick60.tick.machine ∧
        ∀ between acts', ((r.iterate.1.calls between).undergoes acts').counts = true →
          d ≤ r.iterate.1.awakeOver between +
            ((r.iterate.1.calls between).undergoes acts').awakeBefore) := by
  intro s r m
  obtain ⟨hticking, hlevel⟩ := start_ticking hp hc ho clock tickInterval d files
  obtain ⟨hcalled, hnonneg, hpaid⟩ := hticking.calls hlevel.ge before
  have hready : r.Ticking d := hcalled.undergoes acts
  refine ⟨?_, r.machine_heed, fun hno => ?_, fun hcounts => ?_⟩
  · rw [hlevel, zero_add] at hpaid
    exact (le_add_of_nonneg_right hnonneg).trans hpaid
  · exact (hready.iterate_idle hno).2.2.2
  · obtain ⟨hticked, hzero, -, -, hunpaused, hmachine⟩ := hready.iterate_counts hcounts
    refine ⟨hunpaused, hmachine, fun between acts' hagain => ?_⟩
    obtain ⟨hthen, -, hspent⟩ := hticked.calls hzero.ge between
    obtain ⟨-, -, hlong, -⟩ := (hthen.undergoes acts').iterate_counts hagain
    rw [(Keeps.undergoes _ acts').level] at hlong
    have hticks : 0 ≤ (r.iterate.1.ticks between : Rat) * d :=
      mul_nonneg (Nat.cast_nonneg _) hd.le
    linarith

/-- a session by a clock that shows how often it was read -/
def counted : Measured :=
  start (.ofMachine idling) .fresh (⟨fun n => n, Nat.mono_cast, 0⟩ : Readings) none (3 / 2) .empty

/-- a pause that lasts for two iterations -/
def pausedTwice : List (List Act) := [[], [.tell .pause], [], []]

/-- the pause is about to end -/
def resuming : Measured := (counted.calls pausedTwice).undergoes [.tell .unpause]

/-- the timers tick as the pause ends, and then in every second iteration -/
theorem timers_spaced_resuming :
    idling.paused = false ∧ (Console.ofMachine idling).Willing ∧
      (Link.fresh : Link Message).toHost.closed = false ∧ (0 : Rat) < 3 / 2 ∧
      counted.awakeOver pausedTwice = 2 ∧ resuming.counts = true ∧
      resuming.iterate.1.ticks [[], []] = 1 ∧
      ((resuming.iterate.1.calls [[]]).undergoes []).counts = true ∧
      3 / 2 ≤ resuming.iterate.1.awakeOver [[]] +
        ((resuming.iterate.1.calls [[]]).undergoes []).awakeBefore := by
  have hwilling : (Console.ofMachine idling).Willing := fun _ _ => List.not_mem_nil
  have hopen : (Link.fresh : Link Message).toHost.closed = false := rfl
  have hd : (0 : Rat) < 3 / 2 := by decide +kernel
  have hcounts : resuming.counts = true := by decide +kernel
  have hagain : ((resuming.iterate.1.calls [[]]).undergoes []).counts = true := by decide +kernel
  obtain ⟨-, -, -, hspaced⟩ := timers_spaced (c := .ofMachine idling) rfl hwilling hopen hd
    ⟨fun n => n, Nat.mono_cast, 0⟩ none .empty pausedTwice [.tell .unpause]
  refine ⟨rfl, hwilling, hopen, hd, ?_, hcounts, ?_, hagain, (hspaced hcounts).2.2 [[]] [] hagain⟩
  · decide +kernel
  · decide +kernel

end Session

end ChipEight
