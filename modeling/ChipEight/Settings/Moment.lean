/-!
# Dates and times

* `Date`, `TimeOfDay`   a day, and a time to the microsecond;
* `Moment`              a day, a time, or both, with or without an offset in minutes;
* `Date.valid`          the day is in the calendar;
* `Moment.text`         the moment as `1979-05-27T07:32:00.500000+00:00`.
-/

namespace ChipEight

structure Date where
  year : Nat
  month : Nat
  day : Nat

structure TimeOfDay where
  hour : Nat
  minute : Nat
  second : Nat
  micros : Nat

inductive Moment where
  | date (d : Date)
  | time (t : TimeOfDay)
  | at (d : Date) (t : TimeOfDay) (offset : Option Int)

def zeroPadded (w n : Nat) : String :=
  let ds := Nat.repr n
  "".pushn '0' (w - ds.length) ++ ds

namespace Date

def leap (year : Nat) : Bool := year % 4 == 0 && (year % 100 != 0 || year % 400 == 0)

def days (year month : Nat) : Nat :=
  if month = 2 then (if leap year then 29 else 28)
  else if [4, 6, 9, 11].contains month then 30 else 31

/-- the calendar begins with the year 1 -/
def valid (d : Date) : Bool :=
  1 ≤ d.year && 1 ≤ d.month && d.month ≤ 12 && 1 ≤ d.day && d.day ≤ days d.year d.month

def text (d : Date) : String :=
  zeroPadded 4 d.year ++ "-" ++ zeroPadded 2 d.month ++ "-" ++ zeroPadded 2 d.day

end Date

def TimeOfDay.text (t : TimeOfDay) : String :=
  zeroPadded 2 t.hour ++ ":" ++ zeroPadded 2 t.minute ++ ":" ++ zeroPadded 2 t.second
    ++ if t.micros = 0 then "" else "." ++ zeroPadded 6 t.micros

/-- an offset in minutes as hours and minutes -/
def offsetText (minutes : Int) : String :=
  (if minutes < 0 then "-" else "+")
    ++ zeroPadded 2 (minutes.natAbs / 60) ++ ":" ++ zeroPadded 2 (minutes.natAbs % 60)

def Moment.text : Moment → String
  | .date d => d.text
  | .time t => t.text
  | .at d t offset => d.text ++ "T" ++ t.text ++ (offset.map offsetText).getD ""

end ChipEight
