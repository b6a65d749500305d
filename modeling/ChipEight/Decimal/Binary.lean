/-!
# Doubles as exact numbers

* `Binary`               what a double holds: a signed integer times a power of two, an infinity or
  no number;
* `Binary.ofFloat x`     the contents of `x`;
* `two n`, `ten n`        powers of two and of ten;
* `roundDiv num den`     `num / den` to the nearest integer, a half to the even one;
* `nearestBits num den`  the bits of the double nearest to `num / den`, those of infinity when the
  quotient is too large;
* `nearest neg num den`  that double, with a sign;
* `ofInt? n`             the double nearest to the integer `n`, if there is a finite one.

All rounding is done in whole numbers, once, so that no result is rounded twice.
-/

namespace ChipEight.Decimal

def two (n : Nat) : Nat := Nat.pow 2 n

def ten (n : Nat) : Nat := Nat.pow 10 n

inductive Binary where
  | nan
  | infinite (neg : Bool)
  | finite (neg : Bool) (mantissa : Nat) (exponent : Int)

def Binary.ofFloat (x : Float) : Binary :=
  let b := x.toBits.toNat
  let neg := b / two 63 == 1
  let power : Nat := b / two 52 % 2048
  let m := b % two 52
  if power = 2047 then (if m = 0 then .infinite neg else .nan)
  else if power = 0 then .finite neg m (-1074)
  else .finite neg (m + two 52) ((power : Int) - 1075)

/-- `m · 2^e` as a fraction -/
def fraction (m : Nat) (e : Int) : Nat × Nat :=
  (m * two e.toNat, two (-e).toNat)

def roundDiv (num den : Nat) : Nat :=
  let q := num / den
  let r := num % den
  if 2 * r < den then q else if den < 2 * r then q + 1 else q + q % 2

theorem roundDiv_le (num den : Nat) : num / den ≤ roundDiv num den := by
  simp only [roundDiv]; split <;> (try split) <;> omega
theorem roundDiv_le_succ (num den : Nat) : roundDiv num den ≤ num / den + 1 := by
  simp only [roundDiv]; split <;> (try split) <;> omega

def infinityBits : Nat := 2047 * two 52

/-- the power of two of the last place of the double nearest to `num / den` -/
def lastPlace (num den : Nat) : Int :=
  let e := max (-1074) ((num.log2 : Int) - den.log2 - 53)
  if num * two (-e).toNat / (den * two e.toNat) < two 53 then e
  else e + 1

def nearestBits (num den : Nat) : Nat :=
  if num = 0 then 0
  else
    let e := lastPlace num den
    let m := roundDiv (num * two (-e).toNat) (den * two e.toNat)
    min infinityBits ((e + 1074).toNat * two 52 + m)

def nearest (neg : Bool) (num den : Nat) : Float :=
  Float.ofBits (.ofNat (nearestBits num den + if neg then two 63 else 0))

def ofInt? (n : Int) : Option Float :=
  if nearestBits n.natAbs 1 < infinityBits then some (nearest (n < 0) n.natAbs 1) else none

end ChipEight.Decimal
