import ChipEight.Text.Blank
import ChipEight.Text.Digit
import ChipEight.Decimal.Binary

/-!
# Reading numbers

* `ofScientific neg m e`   the double nearest to `± m · 10^e`;
* `digitRun`               one or more digits, single underscores between them;
* `readInt? s`             a decimal integer with an optional sign;
* `readFloat? s`           a decimal number with an optional fraction and exponent, or one of the
  words for infinity and for no number, blanks around it.

The digits may be those of any script.
-/

namespace ChipEight.Decimal

/-- doubles end below `10^309`, and a half of the least one is above `10^-325` -/
def ofScientific (neg : Bool) (m : Nat) (e : Int) : Float :=
  if m = 0 then nearest neg 0 1
  else
    let top : Int := (Nat.repr m).length + e
    if top > 310 then nearest neg (two 1024) 1
    else if top < -330 then nearest neg 0 1
    else nearest neg (m * ten e.toNat) (ten (-e).toNat)

def natOfDigits (cs : List Char) : Nat :=
  cs.foldl (fun n c => 10 * n + (c.toNat - 48)) 0

/-- the digits at the front, single underscores between them left out, and what follows -/
def digitRun : List Char → List Char × List Char
  | '_' :: d :: rest =>
    if d.isDigit then let (ds, rest) := digitRun rest; (d :: ds, rest) else ([], '_' :: d :: rest)
  | c :: rest =>
    if c.isDigit then let (ds, rest) := digitRun rest; (c :: ds, rest) else ([], c :: rest)
  | [] => ([], [])

/-- a run of digits that starts with one -/
def leadingRun : List Char → List Char × List Char
  | '_' :: rest => ([], '_' :: rest)
  | cs => digitRun cs

def readSign : List Char → Bool × List Char
  | '-' :: rest => (true, rest)
  | '+' :: rest => (false, rest)
  | cs => (false, cs)

def readExponent? : List Char → Option Int
  | [] => some 0
  | c :: rest =>
    if c = 'e' ∨ c = 'E' then
      let (neg, rest) := readSign rest
      match leadingRun rest with
      | ([], _) => none
      | (ds, []) => some (if neg then -(natOfDigits ds : Int) else natOfDigits ds)
      | (_, _ :: _) => none
    else none

def readFraction : List Char → List Char × List Char
  | '.' :: rest => leadingRun rest
  | cs => ([], cs)

def plain (s : String) : List Char := (Text.stripList s.toList).map Text.plainDigit

def readInt? (s : String) : Option Int :=
  let (neg, rest) := readSign (plain s)
  match leadingRun rest with
  | ([], _) => none
  | (ds, []) => some (if neg then -(natOfDigits ds : Int) else natOfDigits ds)
  | (_, _ :: _) => none

def readFloat? (s : String) : Option Float :=
  let (neg, rest) := readSign (plain s)
  let word := String.ofList (rest.map Char.toLower)
  if word = "inf" ∨ word = "infinity" then some (nearest neg (two 1024) 1)
  else if word = "nan" then some (0.0 / 0.0)
  else
    let (whole, rest) := leadingRun rest
    let (part, rest) := readFraction rest
    if whole.isEmpty ∧ part.isEmpty then none
    else (readExponent? rest).map fun e =>
      ofScientific neg (natOfDigits (whole ++ part)) (e - part.length)

end ChipEight.Decimal
