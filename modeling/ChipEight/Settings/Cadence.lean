import ChipEight.Settings.Value

/-!
# Cadences

* `Settings.tickInterval v`    the least time between two instructions, in seconds, from one in
  milliseconds;
* `Settings.timerInterval v`   the time between two ticks of the timers, from their frequency;
* `Settings.interval? v`       a time in seconds as it was given, if it was a number at all.
-/

namespace ChipEight.Settings

/-- a division by zero is no number; nothing else goes wrong with doubles -/
def divide (x y : Float) : Except Value.NumberError Float :=
  if y == 0 then .error .zero else .ok (x / y)

def tickInterval (v : Value) : Except Value.NumberError Float := do
  divide (← v.toFloat) 1000.0

/-- no clock gets past an integer beyond all doubles -/
def interval? (v : Value) : Option Float :=
  match v, v.toFloat with
  | _, .ok x => some x
  | .int n, .error _ => some (Decimal.nearest (n < 0) (Decimal.two 1024) 1)
  | _, .error _ => none

def timerInterval (v : Value) : Except Value.NumberError Float := do
  divide 1.0 (← v.toFloat)

end ChipEight.Settings
