import Mathlib.Algebra.Order.BigOperators.Group.List
import ChipEight.Session.Flagged
import ChipEight.Proofs.Session.Stopwatch

/-!
# The time a stopwatch shows

Times are fractions here.

* `press_flagged`, `pressAll_flagged`   with the flag or without, a stopwatch does the same, and
  none of its checks fails;
* `Button.runs`, `Button.zeroes`        if a stopwatch runs, and begins at zero, once it is pressed;
* `Presses`                 buttons with the times at which they are pressed;
* `Presses.lap`             those since the stopwatch was last set to zero;
* `spans t`, `total`        the spans of time, up to `t`, that begin with a button after which it
  runs, and their length taken together;
* `elapsed_press`, `elapsed_pressAll`   what is shown after one button, and after many;
* `elapsed_eq_total`        a stopwatch shows how long it ran since it was last set to zero.
-/

namespace ChipEight

/-! ## buttons -/

namespace Button

def runs : Button → Bool
  | start | resume | restart => true
  | stop | pause | reset => false

def zeroes : Button → Bool
  | reset | restart => true
  | start | stop | pause | resume => false

end Button

abbrev Presses := List (Rat × Button)

namespace Presses

def InOrder (l : Presses) : Prop := l.Pairwise fun d e => d.1 ≤ e.1

def Before (l : Presses) (t : Rat) : Prop := ∀ e ∈ l, e.1 ≤ t

def After (l : Presses) (t : Rat) : Prop := ∀ e ∈ l, t ≤ e.1

/-- nothing pressed sets a stopwatch to zero -/
def Onward (l : Presses) : Prop := ∀ e ∈ l, e.2.zeroes = false

/-- nothing pressed makes a stopwatch run -/
def Idle (l : Presses) : Prop := ∀ e ∈ l, e.2.runs = false

instance (l : Presses) : Decidable l.InOrder := inferInstanceAs (Decidable (List.Pairwise ..))
instance (l : Presses) (t : Rat) : Decidable (l.Before t) := inferInstanceAs (Decidable (∀ e ∈ l, _))
instance (l : Presses) (t : Rat) : Decidable (l.After t) := inferInstanceAs (Decidable (∀ e ∈ l, _))
instance (l : Presses) : Decidable l.Onward := inferInstanceAs (Decidable (∀ e ∈ l, _))
instance (l : Presses) : Decidable l.Idle := inferInstanceAs (Decidable (∀ e ∈ l, _))

def running (l : Presses) : Bool := (l.getLast?.map (·.2.runs)).getD false

/-- from the last button on that sets to zero; all of them if there is none -/
def lap : Presses → Presses
  | [] => []
  | e :: rest => if rest.any (·.2.zeroes) then lap rest else e :: rest

def next (t : Rat) : Presses → Rat
  | [] => t
  | (s, _) :: _ => s

def spans (t : Rat) : Presses → List (Rat × Rat)
  | [] => []
  | (s, b) :: rest => if b.runs then (s, next t rest) :: spans t rest else spans t rest

def total (l : List (Rat × Rat)) : Rat := (l.map fun p => p.2 - p.1).sum

variable {l : Presses} {s t : Rat}

theorem onward_iff : l.Onward ↔ l.any (·.2.zeroes) = false := by
  rw [List.any_eq_false]
  exact forall₂_congr fun e _ => Bool.eq_false_iff

theorem lap_of_onward (h : l.Onward) : l.lap = l := by
  cases l with
  | nil => rfl
  | cons e rest =>
    have hrest : Onward rest := (List.forall_mem_cons.1 h).2
    rw [lap, onward_iff.1 hrest, if_neg Bool.false_ne_true]

theorem lap_suffix (l : Presses) : l.lap <:+ l := by
  induction l with
  | nil => exact List.suffix_rfl
  | cons e rest ih =>
    rw [lap]
    split
    · exact ih.trans (List.suffix_cons e rest)
    · exact List.suffix_rfl

theorem total_spans_cons (s t : Rat) (b : Button) (rest : Presses) :
    total (spans t ((s, b) :: rest)) =
      (if b.runs then next t rest - s else 0) + total (spans t rest) := by
  rw [spans]
  cases b.runs with
  | true => exact List.sum_cons
  | false => exact (zero_add _).symm

theorem le_next (h : l.After s) (ht : s ≤ t) : s ≤ next t l := by
  cases l with
  | nil => exact ht
  | cons e rest => exact h e List.mem_cons_self

theorem spans_le (h : l.InOrder) (ht : l.Before t) : ∀ p ∈ spans t l, p.1 ≤ p.2 := by
  induction l with
  | nil => exact nofun
  | cons e rest ih =>
    obtain ⟨s, b⟩ := e
    obtain ⟨hafter, hrest⟩ := List.pairwise_cons.1 h
    obtain ⟨hs, hbefore⟩ := List.forall_mem_cons.1 ht
    rw [spans]
    split
    · exact List.forall_mem_cons.2 ⟨le_next hafter hs, ih hrest hbefore⟩
    · exact ih hrest hbefore

theorem total_nonneg (h : l.InOrder) (ht : l.Before t) : 0 ≤ total (spans t l) := by
  refine List.sum_nonneg ?_
  intro x hx
  obtain ⟨p, hp, rfl⟩ := List.mem_map.1 hx
  exact sub_nonneg.2 (spans_le h ht p hp)

theorem spans_of_idle (h : l.Idle) : spans t l = [] := by
  induction l with
  | nil => rfl
  | cons e rest ih =>
    obtain ⟨hb, hrest⟩ := List.forall_mem_cons.1 h
    obtain ⟨s, b⟩ := e
    rw [spans, if_neg (Bool.eq_false_iff.1 hb), ih hrest]

end Presses

open Presses

namespace Stopwatch

/-! ## without the flag -/

section
variable {τ : Type} [Time τ] (w : Stopwatch τ)

theorem press_flagged (t : τ) (b : Button) : w.flagged.press t b = .ok (w.press t b).flagged := by
  rcases w with ⟨_ | since, banked⟩ <;> cases b <;> rfl

theorem elapsed_flagged (t : τ) : w.flagged.elapsed t = .ok (w.elapsed t) := by
  rcases w with ⟨_ | since, banked⟩ <;> rfl

theorem pressAll_flagged (l : List (τ × Button)) :
    w.flagged.pressAll l = .ok (w.pressAll l).flagged := by
  induction l generalizing w with
  | nil => rfl
  | cons e rest ih =>
    show (w.flagged.press e.1 e.2 >>= fun v => v.pressAll rest) = _
    rw [press_flagged]
    exact ih (w.press e.1 e.2)

omit [Time τ] in
/-- the flag is down just if there is no time of a start -/
theorem started_flagged : w.flagged.started = none ↔ w.flagged.running = false :=
  Option.isNone_iff_eq_none.symm.trans Option.isSome_eq_false_iff.symm

variable {w}

omit [Time τ] in
theorem start_of_running (h : w.running = true) (t : τ) : w.start t = w := by
  rcases w with ⟨_ | since, banked⟩
  · cases h
  · rfl

theorem stop_of_standing (h : w.running = false) (t : τ) : w.stop t = w := by
  rcases w with ⟨_ | since, banked⟩
  · rfl
  · cases h

/-- a button that asks for what there is already -/
theorem press_redundant {b : Button} (hzero : b.zeroes = false) (hruns : b.runs = w.running)
    (t : τ) : w.press t b = w := by
  cases b with
  | start => exact start_of_running hruns.symm t
  | resume => exact start_of_running hruns.symm t
  | stop => exact stop_of_standing hruns.symm t
  | pause => exact stop_of_standing hruns.symm t
  | reset => cases hzero
  | restart => cases hzero

end

/-! ## what is shown -/

variable (w : Stopwatch Rat)

theorem running_press (t : Rat) (b : Button) : (w.press t b).running = b.runs := by
  cases b with
  | start => exact running_start w t
  | resume => exact running_start w t
  | stop => exact running_stop w t
  | pause => exact running_stop w t
  | reset => rfl
  | restart => rfl

theorem running_pressAll (l : Presses) :
    (w.pressAll l).running = (l.getLast?.map (·.2.runs)).getD w.running := by
  induction l generalizing w with
  | nil => rfl
  | cons e rest ih =>
    rw [List.getLast?_cons]
    refine (ih (w.press e.1 e.2)).trans ?_
    rw [running_press]
    cases rest.getLast? <;> rfl

theorem elapsed_press (s t : Rat) (b : Button) :
    (w.press s b).elapsed t =
      (if b.zeroes then 0 else w.elapsed s) + (if b.runs then t - s else 0) := by
  have hstart : (w.start s).elapsed t = w.elapsed s + (t - s) := by
    rw [elapsed_of_running (running_start w s) s t, elapsed_start]
  have hstop : (w.stop s).elapsed t = w.elapsed s + 0 := by
    rw [elapsed_of_standing (running_stop w s) s t, elapsed_stop, add_zero]
  cases b with
  | start => exact hstart
  | resume => exact hstart
  | stop => exact hstop
  | pause => exact hstop
  | reset => exact (add_zero (0 : Rat)).symm
  | restart => rfl

/-- what was shown at first counts up to the first button, and only if none sets to zero -/
theorem elapsed_pressAll (t : Rat) (l : Presses) :
    (w.pressAll l).elapsed t =
      if l.any (·.2.zeroes) then total (spans t l.lap)
      else w.elapsed (next t l) + total (spans t l) := by
  induction l generalizing w with
  | nil => exact (add_zero _).symm
  | cons e rest ih =>
    obtain ⟨s, b⟩ := e
    refine (ih (w.press s b)).trans ?_
    rw [List.any_cons, lap]
    cases rest.any (·.2.zeroes) with
    | true => rw [Bool.or_true, if_pos rfl, if_pos rfl, if_pos rfl]
    | false =>
      rw [Bool.or_false, if_neg Bool.false_ne_true, if_neg Bool.false_ne_true, total_spans_cons,
        elapsed_press, next]
      cases b.zeroes with
      | true => rw [if_pos rfl, if_pos rfl, zero_add]
      | false => rw [if_neg Bool.false_ne_true, if_neg Bool.false_ne_true, add_assoc]

theorem elapsed_fresh (t : Rat) (l : Presses) :
    (fresh.pressAll l).elapsed t = total (spans t l.lap) := by
  rw [elapsed_pressAll]
  cases hany : l.any (·.2.zeroes) with
  | true => rw [if_pos rfl]
  | false =>
    rw [if_neg Bool.false_ne_true, lap_of_onward (onward_iff.2 hany)]
    exact zero_add _

variable {w} {l more : Presses} {t u : Rat}

theorem elapsed_mono (h : t ≤ u) : w.elapsed t ≤ w.elapsed u := by
  cases hw : w.running with
  | true =>
    rw [elapsed_of_running hw t u]
    exact le_add_of_nonneg_right (sub_nonneg.2 h)
  | false => exact (elapsed_of_standing hw u t).le

theorem elapsed_onward (h : more.Onward) (u : Rat) :
    (w.pressAll more).elapsed u = w.elapsed (next u more) + total (spans u more) := by
  rw [elapsed_pressAll, onward_iff.1 h, if_neg Bool.false_ne_true]

theorem elapsed_le_onward (honward : more.Onward) (horder : more.InOrder) (hafter : more.After t)
    (hbefore : more.Before u) (htu : t ≤ u) : w.elapsed t ≤ (w.pressAll more).elapsed u := by
  rw [elapsed_onward honward]
  calc w.elapsed t ≤ w.elapsed (next u more) := elapsed_mono (le_next hafter htu)
    _ ≤ w.elapsed (next u more) + total (spans u more) :=
      le_add_of_nonneg_right (total_nonneg horder hbefore)

theorem elapsed_idle (honward : more.Onward) (hidle : more.Idle) (hw : w.running = false)
    (t u : Rat) : (w.pressAll more).elapsed u = w.elapsed t := by
  rw [elapsed_onward honward, spans_of_idle hidle, elapsed_of_standing hw t]
  exact add_zero _

theorem pressAll_append (w : Stopwatch Rat) (l more : Presses) :
    w.pressAll (l ++ more) = (w.pressAll l).pressAll more := List.foldl_append

end Stopwatch

/-! ## with the flag -/

/-- Whatever is done to a new stopwatch, no check fails, and but for the flag it is the same as
without one; the flag is up just if there is a time at which it was started; what it shows is how
long it ran since it was last set to zero. So this is never negative, never goes back unless it is
set to zero, and stays while it stands. A button that asks for what there is already might as well
not have been pressed. -/
theorem elapsed_eq_total (l : Presses) :
    ∃ w, Flagged.fresh.pressAll l = .ok w ∧ w.bare = Stopwatch.fresh.pressAll l ∧
      w.running = l.running ∧ (w.started = none ↔ w.running = false) ∧
      (∀ t, ∃ v, w.stop t = .ok v) ∧
      (∀ t, w.elapsed t = .ok (total (spans t l.lap))) ∧
      (∀ t, l.InOrder → l.Before t → 0 ≤ total (spans t l.lap)) ∧
      (∀ (more : Presses) t u, more.Onward → ∃ v x y,
        w.pressAll more = .ok v ∧ w.elapsed t = .ok x ∧ v.elapsed u = .ok y ∧
        (more.InOrder → more.After t → more.Before u → t ≤ u → x ≤ y) ∧
        (w.running = false → more.Idle → x = y)) ∧
      ∀ s b more, b.zeroes = false → b.runs = w.running →
        Flagged.fresh.pressAll (l ++ (s, b) :: more) = Flagged.fresh.pressAll (l ++ more) := by
  have hrun : ∀ l : Presses, Flagged.fresh.pressAll l = .ok (Stopwatch.fresh.pressAll l).flagged :=
    Stopwatch.pressAll_flagged .fresh
  set w : Stopwatch Rat := Stopwatch.fresh.pressAll l
  refine ⟨w.flagged, hrun l, rfl, Stopwatch.running_pressAll .fresh l, w.started_flagged,
    fun t => ⟨_, w.press_flagged t .stop⟩, ?_, ?_, ?_, ?_⟩
  · intro t
    rw [Stopwatch.elapsed_flagged, Stopwatch.elapsed_fresh]
  · intro t horder hbefore
    have hsuffix := lap_suffix l
    exact total_nonneg (horder.sublist hsuffix.sublist) fun e he => hbefore e (hsuffix.mem he)
  · intro more t u honward
    refine ⟨_, _, _, w.pressAll_flagged more, w.elapsed_flagged t, Stopwatch.elapsed_flagged _ u,
      ?_, ?_⟩
    · exact Stopwatch.elapsed_le_onward honward
    · intro hw hidle
      exact (Stopwatch.elapsed_idle honward hidle hw t u).symm
  · intro s b more hzero hruns
    rw [hrun, hrun, Stopwatch.pressAll_append, Stopwatch.pressAll_append]
    show Except.ok (Stopwatch.flagged ((w.press s b).pressAll more)) = _
    rw [Stopwatch.press_redundant hzero hruns]

/-- paused, set back to zero while it ran, and started again while it ran -/
def lapTwice : Presses :=
  [(0, .start), (2, .pause), (5, .resume), (6, .restart), (8, .start), (9, .stop)]

theorem elapsed_eq_total_lapTwice :
    ∃ w, Flagged.fresh.pressAll lapTwice = .ok w ∧ w.elapsed 10 = .ok 3 ∧
      0 ≤ total (spans 10 lapTwice.lap) ∧
      (∃ v y, w.pressAll [(11, .pause), (12, .start)] = .ok v ∧ v.elapsed 15 = .ok y ∧ 3 ≤ y) ∧
      (∃ v, w.pressAll [(11, .pause)] = .ok v ∧ v.elapsed 15 = .ok 3) ∧
      Flagged.fresh.pressAll (lapTwice ++ [(10, .stop), (12, .resume)]) =
        Flagged.fresh.pressAll (lapTwice ++ [(12, .resume)]) := by
  obtain ⟨w, hrun, -, hruns, -, -, htotal, hnonneg, honward, hredundant⟩ :=
    elapsed_eq_total lapTwice
  have hten : w.elapsed 10 = .ok 3 := by
    rw [htotal 10]
    exact congrArg Except.ok (by decide +kernel)
  have hstands : w.running = false := hruns
  refine ⟨w, hrun, hten, hnonneg 10 (by decide +kernel) (by decide +kernel), ?_, ?_, ?_⟩
  · obtain ⟨v, x, y, hv, hx, hy, hle, -⟩ :=
      honward [(11, .pause), (12, .start)] 10 15 (by decide +kernel)
    cases hten.symm.trans hx
    exact ⟨v, y, hv, hy, hle (by decide +kernel) (by decide +kernel) (by decide +kernel)
      (by decide +kernel)⟩
  · obtain ⟨v, x, y, hv, hx, hy, -, hsame⟩ := honward [(11, .pause)] 10 15 (by decide +kernel)
    cases hten.symm.trans hx
    cases hsame hstands (by decide +kernel)
    exact ⟨v, hv, hy⟩
  · exact hredundant 10 .stop [(12, .resume)] rfl hstands.symm

end ChipEight
