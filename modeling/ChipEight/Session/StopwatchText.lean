import ChipEight.Decimal.FormatSpec
import ChipEight.Session.Stopwatch
import ChipEight.Settings.Value

/-!
# Stopwatches in text

* `Stopwatch.summary w t`       a stopwatch in brief, at time `t`;
* `Stopwatch.description w`     what it holds;
* `Stopwatch.format w t spec`   its time, written as a format specification says;
* `Stopwatch.isBelow`, `isAtLeast`   its time compared with a number.
-/

namespace ChipEight.Stopwatch

def summary (w : Stopwatch Float) (now : Float) : String :=
  "Timer(" ++ (if w.running then "running" else "stopped") ++ ", "
    ++ Decimal.fixedText 4 (w.elapsed now) ++ "s)"

def description (w : Stopwatch Float) : String :=
  "Timer(running=" ++ (if w.running then "True" else "False")
    ++ ", elapsed_time=" ++ Decimal.fixedText 6 w.banked
    ++ ", start_time=" ++ (match w.started with | some t => Decimal.shortestText t | none => "None")
    ++ ")"

def format (w : Stopwatch Float) (now : Float) (spec : String) :
    Except Decimal.FormatError String := do
  (← Decimal.FormatSpec.parse spec).format (w.elapsed now)

def isBelow (w : Stopwatch Float) (now : Float) (v : Value) : Except Value.NumberError Bool := do
  let x ← v.toFloat
  return w.elapsed now < x

def isAtLeast (w : Stopwatch Float) (now : Float) (v : Value) : Except Value.NumberError Bool := do
  let x ← v.toFloat
  return w.elapsed now ≥ x

end ChipEight.Stopwatch
