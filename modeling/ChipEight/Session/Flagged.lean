import ChipEight.Session.Stopwatch

/-!
# Stopwatches with a flag

* `Flagged τ`             when a stopwatch was started, the time banked before that, and a flag
  which says if it runs;
* `Flagged.Failure`       the flag is up, and yet there is no time at which it was started;
* `Flagged.stop`, `elapsed`   look at the flag, and then need that time;
* `Button`, `press`       what can be done to a stopwatch;
* `pressAll`              buttons pressed one after another, each at a time of its own;
* `Flagged.bare`          without the flag, `Stopwatch.flagged` with one that agrees.

The flag and the time of the start are set apart, and nothing but these operations keeps them in
step.
-/

namespace ChipEight

structure Flagged (τ : Type) where
  started : Option τ
  banked : τ
  running : Bool

/-- what a stopwatch can be told; to pause is to stop, and to resume is to start -/
inductive Button where
  | start | stop | pause | resume | reset | restart
  deriving DecidableEq, Repr

namespace Flagged

inductive Failure where
  | notStarted
  deriving DecidableEq, Repr

variable {τ : Type} [Time τ]

def fresh : Flagged τ := ⟨none, Time.zero, false⟩

def start (w : Flagged τ) (now : τ) : Flagged τ :=
  if w.running then w else { w with started := some now, running := true }

def stop (w : Flagged τ) (now : τ) : Except Failure (Flagged τ) :=
  if w.running then
    match w.started with
    | none => .error .notStarted
    | some since => .ok ⟨none, Time.add w.banked (Time.sub now since), false⟩
  else .ok w

def elapsed (w : Flagged τ) (now : τ) : Except Failure τ :=
  if w.running then
    match w.started with
    | none => .error .notStarted
    | some since => .ok (Time.add w.banked (Time.sub now since))
  else .ok w.banked

def reset (_ : Flagged τ) : Flagged τ := fresh

def restart (w : Flagged τ) (now : τ) : Flagged τ := w.reset.start now

def press (w : Flagged τ) (now : τ) : Button → Except Failure (Flagged τ)
  | .start | .resume => .ok (w.start now)
  | .stop | .pause => w.stop now
  | .reset => .ok w.reset
  | .restart => .ok (w.restart now)

def pressAll (w : Flagged τ) (l : List (τ × Button)) : Except Failure (Flagged τ) :=
  l.foldlM (fun w e => w.press e.1 e.2) w

def bare (w : Flagged τ) : Stopwatch τ := ⟨w.started, w.banked⟩

end Flagged

namespace Stopwatch

variable {τ : Type} [Time τ]

def press (w : Stopwatch τ) (now : τ) : Button → Stopwatch τ
  | .start | .resume => w.start now
  | .stop | .pause => w.stop now
  | .reset => w.reset
  | .restart => w.restart now

def pressAll (w : Stopwatch τ) (l : List (τ × Button)) : Stopwatch τ :=
  l.foldl (fun w e => w.press e.1 e.2) w

def flagged (w : Stopwatch τ) : Flagged τ := ⟨w.started, w.banked, w.running⟩

end Stopwatch

end ChipEight
