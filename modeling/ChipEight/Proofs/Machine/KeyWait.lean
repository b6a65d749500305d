import ChipEight.Proofs.Machine.Operations

/-!
# Waiting for a key

A tick takes the pending key. A machine that waits goes on with it, and any other forgets it.

* `State.released_exec`  no instruction notes a key, or forgets one;
* `Machine.released_tick`   after a tick none is pending;
* `tick_resumes`, `tick_waits`, `tick_forgets`   what becomes of a pending key;
* `Machine.Touched`      the same machine but for the keys that are down;
* `Machine.Timed`        the same, or one tick of the timers later.
-/

namespace ChipEight

namespace State

theorem released_exec (s : State) (i : Instruction) (roll : UInt8) :
    (s.exec i roll).state.released = s.released := by
  have hskip (c : Bool) : (s.skipIf c).released = s.released := by cases c <;> rfl
  cases i with
  | ret =>
    show s.doReturn.state.released = _
    unfold doReturn
    split
    · rfl
    · dsimp only
      split <;> rfl
  | call a =>
    show (s.doCall a).state.released = _
    unfold doCall
    split <;> rfl
  | skipIfByte x b => exact hskip _
  | skipUnlessByte x b => exact hskip _
  | skipIfEqual x y => exact hskip _
  | skipUnlessEqual x y => exact hskip _
  | skipIfPressed x => exact hskip _
  | skipUnlessPressed x => exact hskip _
  | storeDecimal x =>
    rw [exec, doStore, state_doneUnless]
  | store x =>
    rw [exec, doStore, state_doneUnless]
  | load x =>
    rw [exec, doLoad, state_doneUnless]
  | draw x y n =>
    show (s.doDraw x y n).state.released = _
    unfold doDraw
    split
    · rfl
    · dsimp only
      split <;> rfl
  | _ => rfl

theorem released_run1 (s : State) (roll : UInt8) : (s.run1 roll).state.released = s.released := by
  by_cases h : s.pc + 1 < 4096
  · rw [run1_of_lt h]
    exact released_exec s.next _ roll
  · rw [run1_outside h]

theorem released_step (s : State) (roll : UInt8) : (s.step roll).state.released = none := by
  unfold step
  dsimp only
  split
  · split
    · unfold answer
      split <;> rfl
    · rfl
  · exact released_run1 _ roll

theorem step_forgets {s : State} (h : s.mode = .running) (k : Option Key) (roll : UInt8) :
    step { s with released := k } roll = s.step roll := by
  rw [step_running roll h, step_running (s := { s with released := k }) roll h]

end State

namespace Machine

variable {m u : Machine} {k : Key}

theorem released_tick (m : Machine) : m.tick.machine.state.released = none := by
  rw [state_tick]
  exact State.released_step _ _

theorem tick_resumes {x : Register} (h : m.state.WellFormed) (hx : m.state.awaiting = some x)
    (hr : m.state.released = none) (k : Key) :
    (m.mapState fun s => { s with released := some k }).tick.machine =
      m.mapState (·.resume x k) := by
  have hstep : State.step { m.state with released := some k } m.dice.next =
      ⟨State.resume { m.state with released := none } x k, .ok false, none⟩ :=
    State.step_answered _ (h.awaitingKey hx) hx rfl
  rw [← hr] at hstep
  unfold tick
  dsimp only [mapState]
  rw [hstep]

theorem tick_waits {x : Register} (h : m.state.WellFormed) (hx : m.state.awaiting = some x)
    (hk : m.state.released = none) : m.tick.machine = m := by
  unfold tick
  rw [State.step_waiting _ (h.awaitingKey hx) hk]

/-- a machine that does not wait does as if no key was pending -/
theorem tick_forgets (h : m.state.WellFormed) (hx : m.state.awaiting = none) (k : Option Key) :
    (m.mapState fun s => { s with released := k }).tick = m.tick := by
  have hstep := State.step_forgets (h.running hx) k m.dice.next
  unfold tick
  dsimp only [mapState]
  rw [hstep]
  split
  · rfl
  · unfold note
    dsimp only
    split <;> rfl

/-! ## keys that are down -/

def Touched (m u : Machine) : Prop := ∃ keypad, u = m.mapState fun s => { s with keypad }

def Timed (m u : Machine) : Prop := m.Touched u ∨ m.tick60.Touched u

namespace Touched

theorem refl (m : Machine) : m.Touched m := ⟨m.state.keypad, rfl⟩

theorem trans {v : Machine} (h : m.Touched u) (h' : u.Touched v) : m.Touched v := by
  obtain ⟨keypad, rfl⟩ := h
  obtain ⟨keypad', rfl⟩ := h'
  exact ⟨keypad', rfl⟩

theorem paused (h : m.Touched u) : u.paused = m.paused := by
  obtain ⟨keypad, rfl⟩ := h
  rfl

theorem tick60 (h : m.Touched u) : m.tick60.Touched u.tick60 := by
  obtain ⟨keypad, rfl⟩ := h
  exact ⟨keypad, rfl⟩

end Touched

namespace Timed

theorem paused (h : m.Timed u) : u.paused = m.paused := by
  rcases h with h | h
  · exact h.paused
  · exact h.paused

theorem touched {v : Machine} (h : m.Timed u) (h' : u.Touched v) : m.Timed v :=
  h.imp (·.trans h') (·.trans h')

theorem eq (h : m.Timed u) :
    ∃ delay sound keypad, u = m.mapState fun s => { s with delay, sound, keypad } := by
  obtain ⟨keypad, rfl⟩ | ⟨keypad, rfl⟩ := h
  · exact ⟨m.state.delay, m.state.sound, keypad, rfl⟩
  · exact ⟨_, _, keypad, rfl⟩

theorem waiting (h : m.Timed u) :
    u.state.awaiting = m.state.awaiting ∧ u.state.released = m.state.released ∧
      u.state.v = m.state.v := by
  obtain ⟨delay, sound, keypad, rfl⟩ := h.eq
  exact ⟨rfl, rfl, rfl⟩

theorem wellFormed (h : m.Timed u) (hw : m.state.WellFormed) : u.state.WellFormed := by
  obtain ⟨delay, sound, keypad, rfl⟩ := h.eq
  exact hw

end Timed

/-! ## the release of a key -/

theorem release_paused (h : m.paused = true) (k : Key) : m.release k = m := if_pos h

theorem release_unpaused (h : m.paused = false) (k : Key) :
    m.release k = m.mapState fun s => { s with released := some k } :=
  if_neg (ne_true_of_eq_false h)

/-- what a release leaves is the machine as it would be without it, and the key -/
theorem Timed.of_release (hp : m.paused = false) (h : (m.release k).Timed u) :
    ∃ t, m.Timed t ∧ u = t.mapState fun s => { s with released := some k } := by
  rw [release_unpaused hp] at h
  obtain ⟨keypad, rfl⟩ | ⟨keypad, rfl⟩ := h
  · exact ⟨_, .inl ⟨keypad, rfl⟩, rfl⟩
  · exact ⟨_, .inr ⟨keypad, rfl⟩, rfl⟩

theorem Timed.release_resumes {x : Register} (hw : m.state.WellFormed) (hp : m.paused = false)
    (hr : m.state.released = none) (hx : m.state.awaiting = some x) (h : (m.release k).Timed u) :
    ∃ t, m.Timed t ∧ u.tick.machine = t.mapState (·.resume x k) := by
  obtain ⟨t, ht, rfl⟩ := Timed.of_release hp h
  obtain ⟨hawaiting, hreleased, -⟩ := ht.waiting
  exact ⟨t, ht, tick_resumes (ht.wellFormed hw) (hawaiting.trans hx) (hreleased.trans hr) k⟩

theorem Timed.release_forgotten (hw : m.state.WellFormed) (hp : m.paused = false)
    (hx : m.state.awaiting = none) (h : (m.release k).Timed u) :
    ∃ t, m.Timed t ∧ u.tick.machine = t.tick.machine := by
  obtain ⟨t, ht, rfl⟩ := Timed.of_release hp h
  exact ⟨t, ht, congrArg Ticked.machine (tick_forgets (ht.wellFormed hw)
    (ht.waiting.1.trans hx) (some k))⟩

end Machine

end ChipEight
