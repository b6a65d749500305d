import ChipEight.Decimal.Binary

/-!
# Decimal digits of a double

* `Digits`                 a positive number `0.d₁d₂… · 10^point`;
* `Digits.point num den`   where the decimal point of `num / den` stands;
* `Digits.significant`     the nearest number of that many digits;
* `Digits.shortest`        the fewest digits that read back as the same double, and of those the
  nearest to it.
-/

namespace ChipEight.Decimal

/-- the digits of `n`, most significant first -/
def digitsOf (n : Nat) : List Char := (Nat.repr n).toList

structure Digits where
  text : List Char
  point : Int

def Digits.zero : Digits := ⟨['0'], 1⟩

def dropZeros (cs : List Char) : List Char := (cs.reverse.dropWhile (· == '0')).reverse

def places (n : Nat) : Nat := (digitsOf n).length

/-- the `p` with `10^(p-1) ≤ num / den < 10^p` -/
def Digits.pointOf (num den : Nat) : Int :=
  let p : Int := (places num : Int) - places den
  if num * ten (-p).toNat ≥ den * ten p.toNat then p + 1 else p

/-- `num / den` in units of the `n`-th digit from its first one, as a fraction -/
def Digits.scaled (num den n : Nat) : Nat × Nat :=
  let s : Int := n - Digits.pointOf num den
  (num * ten s.toNat, den * ten (-s).toNat)

/-- the digits of `k` units of the `n`-th digit after the point `p`; rounding up may give `n + 1` -/
def Digits.ofUnits (k n : Nat) (p : Int) : Digits :=
  let ds := digitsOf k
  ⟨ds, p + ((ds.length : Int) - n)⟩

/-- the nearest number of `n` significant digits, a half to the even one -/
def Digits.significant (num den n : Nat) : Digits :=
  if num = 0 then ⟨List.replicate n '0', 1⟩
  else
    let (a, b) := Digits.scaled num den n
    let d := Digits.ofUnits (roundDiv a b) n (Digits.pointOf num den)
    { d with text := d.text.take n }

/-- the ends of the interval of numbers that round to `m · 2^e`, in quarters of `2^e` -/
def quarters (m : Nat) (e : Int) : Nat × Nat :=
  (if m = two 52 ∧ e > -1074 then 4 * m - 1 else 4 * m - 2, 4 * m + 2)

/-- `k` units of the `n`-th digit read back as `m · 2^e` -/
def readsBack (m : Nat) (e : Int) (k n : Nat) : Bool :=
  let (num, den) := fraction m e
  let s : Int := n - Digits.pointOf num den
  let (lo, hi) := quarters m e
  let left := 4 * k * ten (-s).toNat * two (-e).toNat
  let unit := ten s.toNat * two e.toNat
  if m % 2 = 0 then lo * unit ≤ left && left ≤ hi * unit else lo * unit < left && left < hi * unit

/-- the better neighbour on the grid of `n` digits, if one reads back -/
def onGrid? (m : Nat) (e : Int) (n : Nat) : Option Nat :=
  let (num, den) := fraction m e
  let (a, b) := Digits.scaled num den n
  let near := roundDiv a b
  let far := if near = a / b then near + 1 else a / b
  if readsBack m e near n then some near
  else if readsBack m e far n then some far
  else none

/-- the first grid from `n` digits on that holds a number reading back, within `fuel` grids -/
def Digits.search (m : Nat) (e : Int) : Nat → Nat → Digits
  | 0, n => let (num, den) := fraction m e; Digits.significant num den n
  | fuel + 1, n =>
    match onGrid? m e n with
    | some k =>
      let (num, den) := fraction m e
      Digits.ofUnits k n (Digits.pointOf num den)
    | none => Digits.search m e fuel (n + 1)

/-- the shortest digits of `m · 2^e`; seventeen are always enough -/
def Digits.shortest (m : Nat) (e : Int) : Digits :=
  if m = 0 then .zero
  else
    let d := Digits.search m e 16 1
    { d with text := match dropZeros d.text with | [] => ['0'] | ds => ds }

end ChipEight.Decimal
