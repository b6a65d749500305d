/-!
# Stopwatches

* `Time`                   what clocks show: times are added, subtracted and compared;
* `Clock κ τ`              clocks of kind `κ`, which show times `τ`; reading one moves it on;
* `Ticker τ`               a clock that moves on by the same step at every reading;
* `Stopwatch τ`            when it was started, if it runs, and the time banked before that;
* `Stopwatch.elapsed w t`  the time it has run, at time `t`.

A stopwatch is told the time only when it needs to know: to be started while it stands, to be
stopped or read while it runs. Time at which it stands is never counted.
-/

namespace ChipEight

class Time (τ : Type) where
  zero : τ
  add : τ → τ → τ
  sub : τ → τ → τ
  lt : τ → τ → Bool
  le : τ → τ → Bool

instance : Time Float := ⟨0, (· + ·), (· - ·), (· < ·), (· ≤ ·)⟩
instance : Time Rat := ⟨0, (· + ·), (· - ·), (· < ·), (· ≤ ·)⟩

class Clock (κ : Type) (τ : outParam Type) where
  read : κ → τ × κ

structure Ticker (τ : Type) where
  now : τ
  step : τ

instance {τ : Type} [Time τ] : Clock (Ticker τ) τ where
  read c := (c.now, { c with now := Time.add c.now c.step })

structure Stopwatch (τ : Type) where
  started : Option τ
  banked : τ

namespace Stopwatch

variable {τ : Type} [Time τ]

def fresh : Stopwatch τ := ⟨none, Time.zero⟩

def running (w : Stopwatch τ) : Bool := w.started.isSome

def start (w : Stopwatch τ) (now : τ) : Stopwatch τ :=
  match w.started with
  | none => { w with started := some now }
  | some _ => w

def stop (w : Stopwatch τ) (now : τ) : Stopwatch τ :=
  match w.started with
  | some since => ⟨none, Time.add w.banked (Time.sub now since)⟩
  | none => w

def elapsed (w : Stopwatch τ) (now : τ) : τ :=
  match w.started with
  | some since => Time.add w.banked (Time.sub now since)
  | none => w.banked

def reset (_ : Stopwatch τ) : Stopwatch τ := fresh

def restart (w : Stopwatch τ) (now : τ) : Stopwatch τ := w.reset.start now

/-! ## with a clock at hand -/

section
variable {κ : Type} [Clock κ τ]

def startBy (w : Stopwatch τ) (c : κ) : Stopwatch τ × κ :=
  if w.running then (w, c) else let (now, c) := Clock.read c; (w.start now, c)

def stopBy (w : Stopwatch τ) (c : κ) : Stopwatch τ × κ :=
  if w.running then let (now, c) := Clock.read c; (w.stop now, c) else (w, c)

def elapsedBy (w : Stopwatch τ) (c : κ) : τ × κ :=
  if w.running then let (now, c) := Clock.read c; (w.elapsed now, c) else (w.banked, c)

def restartBy (w : Stopwatch τ) (c : κ) : Stopwatch τ × κ :=
  let (now, c) := Clock.read c
  (w.restart now, c)

end

end Stopwatch

end ChipEight
