import ChipEight.Proofs.Machine.KeyWait
import ChipEight.Proofs.Session.Commands

/-!
# Released keys in a session

The release of a key ends the wait that was on when its iteration began, or it is forgotten.

* `Console.Willing`      no watcher refuses an event, so that the timers' tick does not fail;
* `World.Keyed`          a release is pending only from when it was obeyed until the instruction of
  the same iteration;
* `Stage.Course`         what an iteration has done to the machine, by the stage it is in;
* `World.Within`         so it is from the beginning of an iteration until the next begins;
* `Machine.Received`     a machine after a register received the key that it waited for;
* `Machine.Served`       what becomes of a release, and of a wait, in an iteration;
* `World.Unpending`      what is saved has no release pending;
* `release_delivered`    all of this for every run.
-/

namespace ChipEight

/-! ## watchers -/

def Console.Willing (c : Console) : Prop := ∀ name what, (name, .refuse what) ∉ c.watchers

theorem announce_failure {e : Event} {out : Pipe Message} {rs : List Reaction}
    (ho : out.closed = false) (hrs : ∀ what, .refuse what ∉ rs) :
    (announce e out rs).failure = none := by
  induction rs generalizing out with
  | nil => rfl
  | cons r rs ih =>
    have hrest : ∀ what, .refuse what ∉ rs := fun what hmem =>
      hrs what (List.mem_cons_of_mem _ hmem)
    cases r with
    | record => exact ih ho hrest
    | refuse what => exact absurd List.mem_cons_self (hrs what)
    | post =>
      obtain ⟨q, c⟩ := out
      cases ho
      have hposted : Pipe.closed (⟨q ++ [.draw], false⟩ : Pipe Message) = false := rfl
      exact ih hposted hrest

namespace Console

variable {c : Console}

theorem Willing.watching (h : c.Willing) (e : Event) (what : String) :
    .refuse what ∉ c.watching e := by
  intro hmem
  obtain ⟨⟨name, r⟩, hp, hr⟩ := List.mem_map.mp hmem
  cases hr
  exact h name what (List.mem_filter.mp hp).1

theorem Willing.tell (h : c.Willing) {out : Pipe Message} (ho : out.closed = false)
    (log : List LogEntry) (e : Event) (v : Bool) : (c.tell out log e v).result = .ok v := by
  unfold Console.tell
  dsimp only
  rw [announce_failure ho (h.watching e)]

theorem watchers_tick (c : Console) (out : Pipe Message) :
    (c.tick out).console.watchers = c.watchers := by
  unfold tick
  dsimp only
  split <;> rfl

end Console

namespace Session

variable {κ τ : Type} [Time τ] [Clock κ τ] {s t : Session κ τ}

theorem watchers_handle {x : Message} {e : Option Escape} (h : s.handle x = (t, e)) :
    t.console.watchers = s.console.watchers := by
  rw [(handles h).console]
  rfl

theorem watchers_timerTick {r : Except Escape Bool} (h : s.timerTick = (t, r)) :
    t.console.watchers = s.console.watchers := by
  obtain ⟨timer, clock, rfl⟩ := timerTick_eq h
  rfl

theorem Advances.watchers {st : Stage τ} {a : Advance κ τ} (h : s.Advances st a) :
    a.session.console.watchers = s.console.watchers := by
  cases h with
  | obeys ht hr => exact watchers_handle ht
  | quits ht hr => exact watchers_handle ht
  | obeysNot ht => exact watchers_handle ht
  | counts ht => exact watchers_timerTick ht
  | countsNot ht => exact watchers_timerTick ht
  | steps ht =>
    obtain rfl := congrArg Prod.fst ht
    exact Console.watchers_tick _ _
  | stepsNot ht =>
    obtain rfl := congrArg Prod.fst ht
    exact Console.watchers_tick _ _
  | halts ht => exact congrArg Console.watchers (halt_stays ht).2.2.2.1
  | haltsUnheard ht => exact congrArg Console.watchers (halt_stays ht).2.2.2.1
  | _ => rfl

theorem Advances.quiet {st : Stage τ} {a : Advance κ τ} (h : s.Advances st a) (hst : st ≠ .next) :
    .began ∉ a.marks ∧ History.heard a.marks = [] := by
  cases h with
  | hears hq => exact absurd rfl hst
  | hearsNothing hq => exact absurd rfl hst
  | _ => exact ⟨by simp, rfl⟩

theorem timerTick_ok (h : s.console.Willing) (ho : s.link.toHost.closed = false) {e : Escape} :
    s.timerTick ≠ (t, .error e) := by
  intro ht
  have hticked : (s.console.mapMachine Machine.tick60).Willing := h
  have hok : (s.act Console.tick60).2 = .ok false := hticked.tell ho [] _ false
  unfold timerTick at ht
  rcases hact : s.act Console.tick60 with ⟨u, f | v⟩
  · rw [hact] at hok
    cases hok
  · rw [hact] at ht
    cases ht

end Session

/-! ## when a release is pending -/

theorem Machine.released_hear {m : Machine} (hr : m.state.released = none) {x : Message}
    (h : (m.hear x).state.released ≠ none) :
    (∃ k, x = .keyReleased k) ∧ (m.hear x).paused = false := by
  cases x with
  | keyReleased k =>
    refine ⟨⟨k, rfl⟩, ?_⟩
    by_cases hp : m.paused = true
    · exact absurd ((congrArg (·.state.released) (Machine.release_paused hp k)).trans hr) h
    · show (m.release k).paused = false
      rw [release_unpaused (eq_false_of_ne_true hp)]
      exact eq_false_of_ne_true hp
  | _ => exact absurd hr h

/-- a release that was heard may be pending -/
def Stage.holds {τ : Type} : Stage τ → Bool
  | .timing _ | .counting _ | .stepping _ => true
  | _ => false

namespace World

variable {κ τ : Type}

structure Keyed (w : World κ τ) : Prop where
  willing : w.session.console.Willing
  wellFormed : w.session.machine.state.WellFormed
  released : w.session.machine.state.released ≠ none →
    w.stage.holds = true ∧ w.session.paused = false

theorem Keyed.released_eq {w : World κ τ} (h : w.Keyed) (hst : w.stage.holds = false) :
    w.session.machine.state.released = none := by
  by_contra hne
  exact absurd (h.released hne).1 (ne_true_of_eq_false hst)

theorem Keyed.host {w : World κ τ} (hw : w.Keyed) {r : Session κ τ × History}
    (hr : w.session.Hosted r) : Keyed ⟨r.1, w.stage, r.2 ++ w.history⟩ := by
  obtain ⟨keypad, hc⟩ := hr.console
  have hm : r.1.machine = w.session.machine.mapState fun st => { st with keypad } :=
    congrArg Console.machine hc
  refine ⟨?_, hr.wellFormed hw.wellFormed, ?_⟩
  · show r.1.console.Willing
    rw [hc]
    exact hw.willing
  · show r.1.machine.state.released ≠ none → _ ∧ r.1.machine.paused = false
    rw [hm]
    exact hw.released

variable [Time τ] [Clock κ τ]

theorem Keyed.counts {w : World κ τ} (hw : w.Keyed) (hr : w.Reached) (hst : w.stage.ended = false)
    {t : Session κ τ} {e : Escape} : w.session.timerTick ≠ (t, .error e) := by
  refine Session.timerTick_ok hw.willing (eq_false_of_ne_true fun hc => ?_)
  obtain ⟨r, hover⟩ := hr.policed.closed.mp hc
  rw [hover] at hst
  cases hst

theorem Keyed.thread {w : World κ τ} (hw : w.Keyed) (hr : w.Reached) {a : Advance κ τ}
    (ha : w.session.Advances w.stage a) : Keyed ⟨a.session, a.stage, a.marks ++ w.history⟩ := by
  have hcounts (hst : w.stage.ended = false) (t : Session κ τ) (e : Escape) :=
    hw.counts hr hst (t := t) (e := e)
  have hrun := hr.orderly.running
  refine ⟨fun name what hmem => hw.willing name what (ha.watchers ▸ hmem),
    ha.wellFormed hw.wellFormed, ?_⟩
  have hnone := hw.released_eq
  have hreleased := hw.released
  obtain ⟨s, st, (h : History)⟩ := w
  dsimp only at hnone hreleased hcounts hrun ⊢
  cases ha with
  | obeys ht hr' =>
    rw [Session.paused, Session.machine_handle ht]
    exact fun hne => ⟨rfl, (Machine.released_hear (hnone rfl) hne).2⟩
  | quits ht hr' =>
    intro hne
    rw [Session.machine_handle ht] at hne
    obtain ⟨⟨k, rfl⟩, -⟩ := Machine.released_hear (hnone rfl) hne
    cases ht
    exact absurd (hrun rfl) (ne_true_of_eq_false hr')
  | obeysNot ht =>
    intro hne
    rw [Session.machine_handle ht] at hne
    obtain ⟨⟨k, rfl⟩, -⟩ := Machine.released_hear (hnone rfl) hne
    cases ht
  | rests hp =>
    intro hne
    exact absurd hp (ne_true_of_eq_false (hreleased hne).2)
  | due hp hd => exact fun _ => ⟨rfl, hp⟩
  | notDue hp hd => exact fun _ => ⟨rfl, hp⟩
  | counts ht =>
    rw [Session.paused, Session.machine_timerTick ht]
    exact hreleased
  | countsNot ht => exact absurd ht (hcounts rfl _ _)
  | steps ht =>
    rw [Session.machine_act_tick ht]
    exact fun hne => absurd (Machine.released_tick _) hne
  | stepsNot ht =>
    rw [Session.machine_act_tick ht]
    exact fun hne => absurd (Machine.released_tick _) hne
  | halts ht =>
    rw [Session.paused, Session.machine, (Session.halt_stays ht).2.2.2.1]
    exact fun hne => absurd (hnone rfl) hne
  | haltsUnheard ht =>
    rw [Session.paused, Session.machine, (Session.halt_stays ht).2.2.2.1]
    exact fun hne => absurd (hnone rfl) hne
  | _ => exact fun hne => absurd (hnone rfl) hne

theorem run_keyed {w : World κ τ} (hr : w.Reached) (hw : w.Keyed) (ms : List Move) :
    (w.run ms).Keyed :=
  hr.run_invariant (fun _ _ hr ha hk => hk.thread hr ha)
    (fun w a _ hk => hk.host (w.session.hosted a)) hw ms

end World

/-! ## the course of an iteration -/

namespace Machine

/-- the machine after the messages -/
def hears (m : Machine) (xs : List Message) : Machine := xs.foldl hear m

theorem Touched.hear {m u : Machine} (h : m.Touched u) (x : Message) :
    (m.hear x).Touched (u.hear x) := by
  cases x with
  | keyReleased k =>
    show (m.release k).Touched (u.release k)
    cases hp : m.paused with
    | true =>
      rw [release_paused hp, release_paused (h.paused.trans hp)]
      exact h
    | false =>
      rw [release_unpaused hp, release_unpaused (h.paused.trans hp)]
      obtain ⟨keypad, rfl⟩ := h
      exact ⟨keypad, rfl⟩
  | _ =>
    obtain ⟨keypad, rfl⟩ := h
    exact ⟨keypad, rfl⟩

/-- the instruction of an iteration that heard `xs` was executed -/
def Executed (m₀ : Machine) (xs : List Message) (steps : Bool) (m : Machine) : Prop :=
  steps = true ∧ ∃ u, (m₀.hears xs).Timed u ∧ u.paused = false ∧ u.tick.machine.Touched m

/-- no instruction was executed, as the machine is paused or another message than a release was
heard -/
def Skipped (m₀ : Machine) (xs : List Message) (steps : Bool) (m : Machine) : Prop :=
  steps = false ∧ (m₀.hears xs).Touched m ∧ (m.paused = true ∨ ∀ k, xs ≠ [.keyReleased k])

end Machine

namespace Stage

variable {τ : Type}

def isMidway : Stage τ → Bool
  | .asking _ | .obeying _ _ | .timing _ | .counting _ | .stepping _ => true
  | _ => false

/-- what an iteration that began with the machine `m₀` and heard `xs` has made of it, when it is in
the stage or was left for it -/
def Course (m₀ : Machine) (xs : List Message) (steps : Bool) (m : Machine) : Stage τ → Prop
  | .asking _ => steps = false ∧ xs = [] ∧ m₀.Touched m
  | .obeying _ x => steps = false ∧ xs = [x] ∧ m₀.Touched m
  | .timing _ => steps = false ∧ (m₀.hears xs).Touched m
  | .counting _ => steps = false ∧ m.paused = false ∧ (m₀.hears xs).Touched m
  | .stepping _ => steps = false ∧ m.paused = false ∧ (m₀.hears xs).Timed m
  | _ => m₀.Skipped xs steps m ∨ m₀.Executed xs steps m

theorem Course.touched {m₀ m u : Machine} {xs : List Message} {steps : Bool} {st : Stage τ}
    (h : st.Course m₀ xs steps m) (hu : m.Touched u) : st.Course m₀ xs steps u := by
  have hlast (h : m₀.Skipped xs steps m ∨ m₀.Executed xs steps m) :
      m₀.Skipped xs steps u ∨ m₀.Executed xs steps u := by
    refine h.imp (fun ⟨hs, hm, hp⟩ => ⟨hs, hm.trans hu, ?_⟩)
      fun ⟨hs, v, hv, hp, hm⟩ => ⟨hs, v, hv, hp, hm.trans hu⟩
    rw [hu.paused]
    exact hp
  cases st with
  | asking b => exact ⟨h.1, h.2.1, h.2.2.trans hu⟩
  | obeying b x => exact ⟨h.1, h.2.1, h.2.2.trans hu⟩
  | timing b => exact ⟨h.1, h.2.trans hu⟩
  | counting b => exact ⟨h.1, hu.paused.trans h.2.1, h.2.2.trans hu⟩
  | stepping b => exact ⟨h.1, hu.paused.trans h.2.1, h.2.2.touched hu⟩
  | _ => exact hlast h

end Stage

namespace World

variable {κ τ : Type} [Time τ] [Clock κ τ]

theorem Keyed.course {w : World κ τ} (hw : w.Keyed) (hr : w.Reached) {a : Advance κ τ}
    (ha : w.session.Advances w.stage a) (hst : w.stage ≠ .next) {m₀ : Machine}
    {xs : List Message} {steps : Bool} (hc : w.stage.Course m₀ xs steps w.session.machine) :
    a.stage.Course m₀ xs (History.steps a.marks || steps) a.session.machine := by
  have hcounts (hst : w.stage.ended = false) (t : Session κ τ) (e : Escape) :=
    hw.counts hr hst (t := t) (e := e)
  have hrun := hr.orderly.running
  obtain ⟨s, st, (h : History)⟩ := w
  dsimp only at hcounts hrun hst hc
  cases ha with
  | hears hq => exact absurd rfl hst
  | hearsNothing hq => exact absurd rfl hst
  | goesOn hclosed =>
    obtain ⟨hs, rfl, hm⟩ := hc
    exact ⟨hs, hm⟩
  | disconnects hclosed =>
    obtain ⟨hs, rfl, hm⟩ := hc
    exact .inl ⟨hs, hm, .inr nofun⟩
  | obeys ht hrunning =>
    obtain ⟨hs, rfl, hm⟩ := hc
    refine ⟨hs, ?_⟩
    dsimp only
    rw [Session.machine_handle ht]
    exact hm.hear _
  | quits ht hrunning =>
    obtain ⟨hs, rfl, hm⟩ := hc
    refine .inl ⟨hs, ?_, .inr ?_⟩
    · dsimp only
      rw [Session.machine_handle ht]
      exact hm.hear _
    · rintro k hk
      cases hk
      cases ht
      exact absurd (hrun rfl) (ne_true_of_eq_false hrunning)
  | obeysNot ht =>
    obtain ⟨hs, rfl, hm⟩ := hc
    refine .inl ⟨hs, ?_, .inr ?_⟩
    · dsimp only
      rw [Session.machine_handle ht]
      exact hm.hear _
    · rintro k hk
      cases hk
      cases ht
  | rests hp => exact .inl ⟨hc.1, hc.2, .inl hp⟩
  | due hp hd => exact ⟨hc.1, hp, hc.2⟩
  | notDue hp hd => exact ⟨hc.1, hp, .inl hc.2⟩
  | counts ht =>
    obtain ⟨hs, hp, hm⟩ := hc
    refine ⟨hs, ?_, ?_⟩ <;> dsimp only <;> rw [Session.machine_timerTick ht]
    · exact hp
    · exact .inr hm.tick60
  | countsNot ht => exact absurd ht (hcounts rfl _ _)
  | steps ht =>
    obtain ⟨-, hp, hm⟩ := hc
    refine .inr ⟨rfl, s.machine, hm, hp, ?_⟩
    dsimp only
    rw [Session.machine_act_tick ht]
    exact .refl _
  | stepsNot ht =>
    obtain ⟨-, hp, hm⟩ := hc
    refine .inr ⟨rfl, s.machine, hm, hp, ?_⟩
    dsimp only
    rw [Session.machine_act_tick ht]
    exact .refl _
  | halts ht =>
    dsimp only
    rw [Session.machine, (Session.halt_stays ht).2.2.2.1]
    exact hc
  | haltsUnheard ht =>
    dsimp only
    rw [Session.machine, (Session.halt_stays ht).2.2.2.1]
    exact hc
  | _ => exact hc

theorem begins {s : Session κ τ} {a : Advance κ τ} (ha : s.Advances .next a) :
    ∃ m, m ≠ .began ∧ a.marks = [m, .began] ∧ ∀ m₀ : Machine, m₀.Touched s.machine →
      a.stage.Course m₀ (History.heard [m]) (History.steps [m]) a.session.machine := by
  cases ha with
  | @hears x rest c hq => exact ⟨.heard x, nofun, rfl, fun m₀ hm => ⟨rfl, rfl, hm⟩⟩
  | hearsNothing hq => exact ⟨.silence, nofun, rfl, fun m₀ hm => ⟨rfl, rfl, hm⟩⟩

/-- from when an iteration is about to begin, with the machine `m₀` and `n` iterations done, until
the next one has begun -/
def Within (m₀ : Machine) (n : Nat) (w : World κ τ) : Prop :=
  (w.stage = .next ∧ w.history.iterations.length = n ∧ m₀.Touched w.session.machine) ∨
    (∃ i is, w.history.iterations = i :: is ∧ is.length = n ∧
      w.stage.Course m₀ i.heard i.steps w.session.machine) ∨
    n + 1 < w.history.iterations.length

section
omit [Time τ] [Clock κ τ]
variable {m₀ : Machine} {n : Nat} {w : World κ τ}

theorem Within.step {i : History} {is : List History} {t : Session κ τ} {st : Stage τ}
    {ms : History} (hi : w.history.iterations = i :: is) (his : is.length = n)
    (hbegan : .began ∉ ms) (hheard : ms.heard = [])
    (hc : st.Course m₀ i.heard (ms.steps || i.steps) t.machine) :
    Within m₀ n ⟨t, st, ms ++ w.history⟩ := by
  refine .inr (.inl ⟨ms ++ i, is, History.iterations_append hbegan hi, his, ?_⟩)
  rw [History.heard_append, hheard, List.append_nil, History.steps_append]
  exact hc

theorem Within.host (hw : w.Within m₀ n) {r : Session κ τ × History} (hr : w.session.Hosted r) :
    Within m₀ n ⟨r.1, w.stage, r.2 ++ w.history⟩ := by
  have hbegan : .began ∉ r.2 := fun hmem => nomatch hr.marks _ hmem
  have htouched : w.session.machine.Touched r.1.machine := hr.machine
  rcases hw with ⟨hst, hn, hm⟩ | ⟨i, is, hi, his, hc⟩ | hlt
  · exact .inl ⟨hst, (History.length_iterations_append hbegan _).trans hn, hm.trans htouched⟩
  · have hsteps : r.2.steps = false := List.any_eq_false.mpr fun m hm =>
      ne_true_of_eq_false (Mark.isStep_of_trails (Mark.trails_of_isHost (hr.marks m hm)))
    refine Within.step hi his hbegan hr.heard ?_
    rw [hsteps, Bool.false_or]
    exact hc.touched htouched
  · exact .inr (.inr (Nat.lt_of_lt_of_le hlt (History.length_iterations_le _ _)))

end

theorem Within.thread {m₀ : Machine} {n : Nat} {w : World κ τ} (hw : w.Within m₀ n)
    (hk : w.Keyed) (hr : w.Reached) {a : Advance κ τ} (ha : w.session.Advances w.stage a) :
    Within m₀ n ⟨a.session, a.stage, a.marks ++ w.history⟩ := by
  rcases hw with ⟨hst, hn, hm⟩ | ⟨i, is, hi, his, hc⟩ | hlt
  · rw [hst] at ha
    obtain ⟨m, hbegan, hmarks, hc⟩ := begins ha
    refine .inr (.inl ⟨[m], w.history.iterations, ?_, hn, hc m₀ hm⟩)
    rw [hmarks]
    exact History.iterations_begin hbegan w.history
  · by_cases hst : w.stage = .next
    · rw [hst] at ha
      obtain ⟨m, hbegan, hmarks, -⟩ := begins ha
      refine .inr (.inr ?_)
      show n + 1 < (History.iterations (a.marks ++ w.history)).length
      have hjoined : History.iterations (a.marks ++ w.history) = [m] :: i :: is := by
        rw [hmarks, ← hi]
        exact History.iterations_begin hbegan w.history
      rw [hjoined, List.length_cons, List.length_cons, his]
      omega
    · obtain ⟨hbegan, hheard⟩ := ha.quiet hst
      exact Within.step hi his hbegan hheard (hk.course hr ha hst hc)
  · exact .inr (.inr (Nat.lt_of_lt_of_le hlt (History.length_iterations_le _ _)))

theorem run_within {w : World κ τ} (hr : w.Reached) (hk : w.Keyed) (hst : w.stage = .next)
    (ms : List Move) : (w.run ms).Within w.session.machine w.history.iterations.length := by
  refine (hr.run_invariant (P := fun v => v.Keyed ∧
    v.Within w.session.machine w.history.iterations.length) ?_ ?_ ⟨hk, ?_⟩ ms).2
  · exact fun v a hr ha hv => ⟨hv.1.thread hr ha, hv.2.thread hv.1 hr ha⟩
  · exact fun v a hr hv => ⟨hv.1.host (v.session.hosted a), hv.2.host (v.session.hosted a)⟩
  · exact .inl ⟨hst, rfl, .refl _⟩

omit [Time τ] [Clock κ τ] in
theorem Within.course {m₀ : Machine} {w : World κ τ} {i : History} {is : List History}
    (hw : w.Within m₀ is.length) (hi : w.history.iterations = i :: is) :
    w.stage.Course m₀ i.heard i.steps w.session.machine := by
  have hlen : w.history.iterations.length = is.length + 1 := congrArg List.length hi
  rcases hw with ⟨-, hn, -⟩ | ⟨j, js, hj, -, hc⟩ | hlt
  · omega
  · rw [hi] at hj
    cases hj
    exact hc
  · omega

end World

/-! ## what becomes of releases -/

/-- `u` is `m` once the register `x`, which waited, has received the key `k` -/
structure Machine.Received (m : Machine) (x : Register) (k : Key) (u : Machine) : Prop where
  register : u.state.v.get x = .ofNat k.val
  others : ∀ z, z ≠ x → u.state.v.get z = m.state.v.get z
  mode : u.state.mode = .running
  awaiting : u.state.awaiting = none
  released : u.state.released = none
  /-- besides, at most the timers have ticked, and the host may have touched keys -/
  frame : ∃ t, m.Timed t ∧ u = t.mapState fun s =>
    { s with
      v := u.state.v
      mode := .running
      awaiting := none
      released := none
      keypad := u.state.keypad }

theorem Machine.Timed.received {m t u : Machine} {x : Register} {k : Key} (h : m.Timed t)
    (hr : m.state.released = none) (hu : (t.mapState (·.resume x k)).Touched u) :
    m.Received x k u := by
  obtain ⟨-, hreleased, hv⟩ := h.waiting
  have hnone : t.state.released = none := hreleased.trans hr
  obtain ⟨keypad, rfl⟩ := hu
  refine ⟨?_, fun z hz => ?_, rfl, rfl, hnone, t, h, ?_⟩
  · exact (State.get_withV _ x x _).trans (if_pos rfl)
  · rw [← hv]
    exact (State.get_withV _ x z _).trans (if_neg hz)
  · unfold mapState State.resume
    dsimp only
    rw [← hnone]
    rfl

/-- what an iteration with the marks `i` makes of the machine `m`, as to keys: it was `u` when the
iteration was over, or is `u` so far -/
structure Machine.Served (m : Machine) (i : History) (u : Machine) : Prop where
  /-- a release that is heard while the machine is paused changes nothing -/
  unnoticed : ∀ k, i.heard = [.keyReleased k] → m.paused = true → m.Touched u
  /-- a wait that was on ends with the release -/
  resumed : ∀ k x, i.heard = [.keyReleased k] → m.paused = false → i.steps = true →
    m.state.awaiting = some x → m.Received x k u
  /-- if none was on, the instruction is executed as if there was no release -/
  forgotten : ∀ k, i.heard = [.keyReleased k] → m.paused = false → i.steps = true →
    m.state.awaiting = none → ∃ t, m.Timed t ∧ t.tick.machine.Touched u
  waits : (∀ k, i.heard ≠ [.keyReleased k]) → ∀ x, m.state.awaiting = some x →
    u.state.awaiting = some x ∧ u.state.v = m.state.v

theorem Machine.hears_state {m : Machine} {xs : List Message} (hone : xs.length ≤ 1)
    (hxs : ∀ k, xs ≠ [.keyReleased k]) : (m.hears xs).state = m.state := by
  match xs with
  | [] => rfl
  | [x] =>
    cases x with
    | keyReleased k => exact absurd rfl (hxs k)
    | _ => rfl
  | x :: y :: xs => exact absurd hone (by simp)

namespace Stage

variable {τ : Type} {st : Stage τ} {m₀ m : Machine} {xs : List Message} {k : Key} {steps : Bool}

namespace Course

theorem cases (h : st.Course m₀ xs steps m) :
    (steps = false ∧ st.isMidway = true ∧
      (m₀.Touched m ∨ (m₀.hears xs).Touched m ∨ m.paused = false ∧ (m₀.hears xs).Timed m)) ∨
      m₀.Skipped xs steps m ∨ m₀.Executed xs steps m := by
  cases st with
  | asking b => exact .inl ⟨h.1, rfl, .inl h.2.2⟩
  | obeying b x => exact .inl ⟨h.1, rfl, .inl h.2.2⟩
  | timing b => exact .inl ⟨h.1, rfl, .inr (.inl h.2)⟩
  | counting b => exact .inl ⟨h.1, rfl, .inr (.inl h.2.2)⟩
  | stepping b => exact .inl ⟨h.1, rfl, .inr (.inr h.2)⟩
  | _ => exact .inr h

theorem unnoticed (h : st.Course m₀ [.keyReleased k] steps m) (hp : m₀.paused = true) :
    m₀.Touched m := by
  have hears : m₀.hears [.keyReleased k] = m₀ := Machine.release_paused hp k
  have hpaused {u : Machine} (hu : m₀.Timed u) : u.paused ≠ false := by
    rw [hu.paused, hp]
    nofun
  rcases h.cases with ⟨-, -, hm | hm | ⟨hup, hm⟩⟩ | ⟨-, hm, -⟩ | ⟨-, u, hm, hup, -⟩
  · exact hm
  · rwa [hears] at hm
  · rw [hears] at hm
    exact absurd hup (hpaused hm)
  · rwa [hears] at hm
  · rw [hears] at hm
    exact absurd hup (hpaused hm)

theorem executes (h : st.Course m₀ [.keyReleased k] steps m) (hp : m₀.paused = false)
    (hst : st.isMidway = false) : steps = true := by
  have hears : m₀.hears [.keyReleased k] = m₀.mapState fun s => { s with released := some k } :=
    Machine.release_unpaused hp k
  rcases h.cases with ⟨-, hmid, -⟩ | ⟨-, hm, hpaused | hother⟩ | ⟨hs, -⟩
  · exact absurd hmid (ne_true_of_eq_false hst)
  · rw [hears] at hm
    exact absurd hpaused (ne_true_of_eq_false (hm.paused.trans hp))
  · exact absurd rfl (hother k)
  · exact hs

theorem executed (h : st.Course m₀ xs steps m) (hs : steps = true) :
    ∃ u, (m₀.hears xs).Timed u ∧ u.tick.machine.Touched m := by
  rcases h.cases with ⟨hno, -, -⟩ | ⟨hno, -, -⟩ | ⟨-, u, hu, -, hm⟩
  · exact absurd hs (ne_true_of_eq_false hno)
  · exact absurd hs (ne_true_of_eq_false hno)
  · exact ⟨u, hu, hm⟩

theorem waits {x : Register} (h : st.Course m₀ xs steps m) (hw : m₀.state.WellFormed)
    (hr : m₀.state.released = none) (hone : xs.length ≤ 1) (hxs : ∀ k, xs ≠ [.keyReleased k])
    (hx : m₀.state.awaiting = some x) :
    m.state.awaiting = some x ∧ m.state.v = m₀.state.v := by
  have hears := Machine.hears_state (m := m₀) hone hxs
  have hstill {u : Machine} (hu : m₀.Timed u ∨ (m₀.hears xs).Timed u) :
      u.state.WellFormed ∧ u.state.awaiting = some x ∧ u.state.released = none ∧
        u.state.v = m₀.state.v := by
    rcases hu with hu | hu
    · obtain ⟨ha, hrel, hv⟩ := hu.waiting
      exact ⟨hu.wellFormed hw, ha.trans hx, hrel.trans hr, hv⟩
    · obtain ⟨ha, hrel, hv⟩ := hu.waiting
      rw [hears] at ha hrel hv
      exact ⟨hu.wellFormed (hears ▸ hw), ha.trans hx, hrel.trans hr, hv⟩
  have hplain {u : Machine} (hu : m₀.Timed u ∨ (m₀.hears xs).Timed u) :
      u.state.awaiting = some x ∧ u.state.v = m₀.state.v :=
    ⟨(hstill hu).2.1, (hstill hu).2.2.2⟩
  rcases h.cases with ⟨-, -, hm | hm | ⟨-, hm⟩⟩ | ⟨-, hm, -⟩ | ⟨-, u, hu, -, hm⟩
  · exact hplain (.inl (.inl hm))
  · exact hplain (.inr (.inl hm))
  · exact hplain (.inr hm)
  · exact hplain (.inr (.inl hm))
  · obtain ⟨hwell, ha, hrel, -⟩ := hstill (.inr hu)
    rw [Machine.tick_waits hwell ha hrel] at hm
    exact hplain (.inr (hu.touched hm))

theorem served {i : History} (h : st.Course m₀ i.heard i.steps m) (hw : m₀.state.WellFormed)
    (hr : m₀.state.released = none) (hone : i.heard.length ≤ 1) : m₀.Served i m where
  unnoticed k hk hp := by
    rw [hk] at h
    exact h.unnoticed hp
  resumed k x hk hp hs hx := by
    rw [hk] at h
    obtain ⟨u, hu, hm⟩ := h.executed hs
    obtain ⟨t, ht, hu⟩ := Machine.Timed.release_resumes hw hp hr hx hu
    exact ht.received hr (hu ▸ hm)
  forgotten k hk hp hs hx := by
    rw [hk] at h
    obtain ⟨u, hu, hm⟩ := h.executed hs
    obtain ⟨t, ht, hu⟩ := Machine.Timed.release_forgotten hw hp hx hu
    exact ⟨t, ht, hu ▸ hm⟩
  waits hxs x hx := h.waits hw hr hone hxs hx

end Course

end Stage

/-! ## what is saved -/

namespace Session

variable {κ τ : Type} [Time τ] [Clock κ τ] {s t : Session κ τ}

theorem files_handle {x : Message} {e : Option Escape} (hw : s.machine.state.WellFormed)
    (h : s.handle x = (t, e)) :
    t.files = s.files ∨ ∃ path, s.files.write path s.machine.state.image = .ok t.files := by
  have hsaved : s.machine.state.encode = .ok s.machine.state.image := State.encode_wellFormed hw
  obtain rfl : (s.handle x).1 = t := congrArg Prod.fst h
  cases x with
  | save path =>
    have hdone : s.handle (.save path) = s.doSave path := rfl
    cases hwrite : s.files.write path s.machine.state.image with
    | ok files =>
      obtain ⟨log, hlog⟩ := { s with files }.report_eq (written path)
      rw [hdone, doSave_written hsaved hwrite, hlog]
      exact .inr ⟨path, hwrite⟩
    | error e =>
      obtain ⟨log, hlog⟩ := s.report_eq (unwritten path e)
      rw [hdone, doSave_unwritten hsaved hwrite, hlog]
      exact .inl rfl
  | pause =>
    unfold handle doPause
    dsimp only
    split <;> exact .inl rfl
  | unpause =>
    unfold handle doUnpause
    dsimp only
    split <;> exact .inl rfl
  | snapshot n =>
    obtain ⟨tickets, e, hdone⟩ := s.doSnapshot_eq n
    rw [handle, hdone]
    exact .inl rfl
  | _ => exact .inl rfl

end Session

namespace World

variable {κ τ : Type} [Time τ] [Clock κ τ]

theorem session_obeying {w : World κ τ} {b : τ} {x : Message} (hst : w.stage = .obeying b x) :
    (w.move .thread).session = (w.session.handle x).1 := by
  show (w.session.advance w.stage).session = _
  rw [hst]
  unfold Session.advance
  dsimp only
  rcases w.session.handle x with ⟨t, e | e⟩ <;> rfl

structure Unpending (w : World κ τ) (bytes : List UInt8) : Prop where
  pending : State.byteAt bytes.toArray 4409 = 0
  tickets : (w.move .thread).session.tickets = w.session.tickets ∨
    (∃ n, (w.move .thread).session.tickets = w.session.tickets.set n (.answered bytes)) ∨
    ∃ n, (w.move .thread).session.tickets = w.session.tickets.set n .notified
  files : (w.move .thread).session.files = w.session.files ∨
    ∃ path, w.session.files.write path bytes = .ok (w.move .thread).session.files

theorem Keyed.unpending {w : World κ τ} (hw : w.Keyed) {b : τ} {x : Message}
    (hst : w.stage = .obeying b x) : w.Unpending w.session.machine.state.image := by
  have hnone : w.session.machine.state.released = none := hw.released_eq (by rw [hst]; rfl)
  refine ⟨?_, ?_, ?_⟩
  · rw [w.session.machine.state.image_laid.byteAt_pending.1, hnone]
    rfl
  · have hsaved : w.session.machine.snapshot = .ok w.session.machine.state.image :=
      State.encode_wellFormed hw.wellFormed
    have hanswers := Session.tickets_handle (s := w.session) (x := x) (Prod.eta _).symm
    rw [session_obeying hst]
    generalize (w.session.handle x).1.tickets = ts at hanswers ⊢
    cases hanswers with
    | kept hx => exact .inl rfl
    | @answered n bytes hx hn hb =>
      cases hb.symm.trans hsaved
      exact .inr (.inl ⟨n, rfl⟩)
    | broken hx hn hb he => cases hb.symm.trans hsaved
    | @noticed n hx hn => exact .inr (.inr ⟨n, rfl⟩)
  · rw [session_obeying hst]
    exact Session.files_handle hw.wellFormed (Prod.eta _).symm

/-- a release is pending only from when it was heard to the instruction of the same iteration. What
becomes of it there hangs on whether the machine was waiting when the iteration began: no release
reaches a wait that began later, and what is saved has none pending. -/
theorem release_delivered {c : Console} {clock : κ} {tickInterval : Option τ} {timerInterval : τ}
    {files : Files} {ms : List Move} {w : World κ τ} (hm : c.machine.state.WellFormed)
    (hr : c.machine.state.released = none) (hc : c.Willing)
    (hw : w = (start c clock tickInterval timerInterval files).run ms) :
    (w.session.machine.state.released ≠ none →
      w.stage.holds = true ∧ w.session.paused = false) ∧
    (∀ b x, w.stage = .obeying b x → (∃ bytes, w.Unpending bytes) ∧
      ((∃ k, x = .keyReleased k) → w.session.paused = true →
        (w.move .thread).session = w.session)) ∧
    (w.stage = .next → ∀ ns i is, (w.run ns).history.iterations = i :: is →
      is.length = w.history.iterations.length →
      w.session.machine.Served i (w.run ns).session.machine ∧
        ((∃ k, i.heard = [.keyReleased k]) → w.session.paused = false →
          (w.run ns).stage.isMidway = false → i.steps = true)) := by
  have hstart : (start c clock tickInterval timerInterval files).Reached :=
    ⟨c, clock, tickInterval, timerInterval, files, [], rfl⟩
  have hreached : w.Reached := ⟨c, clock, tickInterval, timerInterval, files, ms, hw⟩
  have hkeyed : w.Keyed := by
    rw [hw]
    refine run_keyed hstart ⟨?_, hm, fun hne => absurd hr hne⟩ ms
    intro name what hmem
    rcases List.mem_append.mp hmem with hold | hnew
    · exact hc name what hold
    · cases List.mem_singleton.mp hnew
  refine ⟨hkeyed.released, fun b x hst => ⟨⟨_, hkeyed.unpending hst⟩, ?_⟩,
    fun hst ns i is hi his => ?_⟩
  · rintro ⟨k, rfl⟩ hp
    rw [session_obeying hst]
    show w.session.mapMachine (·.release k) = w.session
    have hsame : w.session.console.mapMachine (·.release k) = w.session.console :=
      Console.mapMachine_self (Machine.release_paused hp k)
    rw [Session.mapMachine, hsame]
  · have hnone : w.session.machine.state.released = none := hkeyed.released_eq (by rw [hst]; rfl)
    have hwithin := run_within hreached hkeyed hst ns
    rw [← his] at hwithin
    have hcourse := hwithin.course hi
    have hone : i.heard.length ≤ 1 := by
      refine ((hreached.run ns).paced.each i ?_).1
      rw [hi]
      exact List.mem_cons_self
    refine ⟨hcourse.served hkeyed.wellFormed hnone hone, ?_⟩
    rintro ⟨k, hk⟩ hp hmid
    rw [hk] at hcourse
    exact hcourse.executes hp hmid

/-- a state in which the first register waits for a key -/
def firstWaits : State := State.fresh.waitFor State.first

def waitingStart : World (Ticker Rat) Rat :=
  start (.ofMachine (.ofState firstWaits (.cycle #[]) false)) ⟨0, 1⟩ (some 0) 1 .empty

/-- the last key is released, and the thread goes through an iteration -/
def answering : List Move :=
  .host (.tell (.keyReleased (Fin.last 15))) :: List.replicate 6 .thread

theorem iterations_answering : (waitingStart.run answering).history.iterations =
    [[.stepped none, .counted none, .obeyed (.keyReleased (Fin.last 15)) none,
      .heard (.keyReleased (Fin.last 15))]] := by
  decide +kernel

theorem release_delivered_answering :
    firstWaits.WellFormed ∧ firstWaits.released = none ∧
      (Console.ofMachine waitingStart.session.machine).Willing ∧ waitingStart.stage = .next ∧
      (waitingStart.run answering).session.machine.state.v.get State.first = 15 ∧
      (∀ z, z ≠ State.first →
        (waitingStart.run answering).session.machine.state.v.get z = firstWaits.v.get z) ∧
      (waitingStart.run answering).session.machine.state.mode = .running ∧
      (waitingStart.run answering).session.machine.state.awaiting = none := by
  have hwell : firstWaits.WellFormed := State.fresh_wellFormed.waitFor _
  have hwilling : (Console.ofMachine waitingStart.session.machine).Willing :=
    fun _ _ => List.not_mem_nil
  have hw : waitingStart = waitingStart.run [] := rfl
  obtain ⟨-, -, hserved⟩ := release_delivered hwell rfl hwilling hw
  obtain ⟨⟨-, hresumed, -, -⟩, -⟩ := hserved rfl answering _ [] iterations_answering rfl
  obtain ⟨hregister, hothers, hmode, hawaiting, -, -⟩ := hresumed _ _ rfl rfl rfl rfl
  exact ⟨hwell, rfl, hwilling, rfl, hregister, hothers, hmode, hawaiting⟩

end World

end ChipEight
