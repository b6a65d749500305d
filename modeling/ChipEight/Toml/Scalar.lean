import ChipEight.Decimal.Read
import ChipEight.Settings.Value

/-!
# Scalars of a TOML document

Each reader takes the characters from its value on and gives the value with those behind it.

* `TomlError`            what is wrong with a document;
* `readLiteral`, `readBasic`, …   strings, after their opening quotes;
* `readDate?`, `readTime?`, `readMoment?`   dates and times;
* `readNumber?`          integers and floats;
* `readSpecial?`         infinities and what is no number.
-/

namespace ChipEight.Toml

inductive TomlError where
  | syntaxError
  | tooManyDigits (count : Nat)
  deriving DecidableEq, Repr

abbrev Front (α : Type) := α × List Char

def fail {α : Type} : Except TomlError α := .error .syntaxError

/-! ## characters -/

def isControl (c : Char) : Bool := c.toNat < 32 || c.toNat == 127

/-- characters that may not stand in a comment or in a string of one line -/
def isIllegal (c : Char) : Bool := isControl c && c != '\t'

/-- characters that may not stand in a string of several lines -/
def isIllegalInLines (c : Char) : Bool := isIllegal c && c != '\n'

def isSpace (c : Char) : Bool := c == ' ' || c == '\t'

def isSpaceOrNewline (c : Char) : Bool := isSpace c || c == '\n'

def isBare (c : Char) : Bool := c.isAlphanum || c == '-' || c == '_'

def skipSpaces (cs : List Char) : List Char := cs.dropWhile isSpace

/-! ## strings -/

/-- up to the next single quote -/
def readLiteral : List Char → Except TomlError (Front (List Char))
  | [] => fail
  | '\'' :: rest => .ok ([], rest)
  | c :: rest =>
    if isIllegal c then fail
    else do
      let (s, rest) ← readLiteral rest
      return (c :: s, rest)

def readLiteralLines : List Char → Except TomlError (Front (List Char))
  | [] => fail
  | '\'' :: '\'' :: '\'' :: rest => .ok ([], rest)
  | c :: rest =>
    if isIllegalInLines c then fail
    else do
      let (s, rest) ← readLiteralLines rest
      return (c :: s, rest)

def hexValue? (c : Char) : Option Nat :=
  if c.isDigit then some (c.toNat - 48)
  else if 'a' ≤ c ∧ c ≤ 'f' then some (c.toNat - 87)
  else if 'A' ≤ c ∧ c ≤ 'F' then some (c.toNat - 55)
  else none

def hexNumber? (cs : List Char) : Option Nat :=
  cs.foldlM (fun n c => (hexValue? c).map (16 * n + ·)) 0

/-- the character with a hexadecimal code; half of a surrogate pair is none -/
def hexChar (cs : List Char) : Except TomlError Char :=
  match hexNumber? cs with
  | some n => if n < 0xD800 ∨ 0xDFFF < n ∧ n < 0x110000 then .ok (Char.ofNat n) else fail
  | none => fail

/-- the character that a backslash and a letter stand for -/
def escaped? : Char → Option Char
  | 'b' => some '\x08'
  | 't' => some '\t'
  | 'n' => some '\n'
  | 'f' => some '\x0c'
  | 'r' => some '\r'
  | '"' => some '"'
  | '\\' => some '\\'
  | _ => none

/-- where a reader of a string stands: in its text, behind a backslash at the end of a line, or
before the text of a later line -/
inductive Spot where
  | text | lineEnd | nextLine
  deriving DecidableEq

/-- up to the closing quotes: one quote, or three if the string may have several lines -/
def readBasic (lines : Bool) : Spot → List Char → Except TomlError (Front (List Char))
  | _, [] => fail
  | .lineEnd, c :: rest =>
    if isSpace c then readBasic lines .lineEnd rest
    else if c = '\n' then readBasic lines .nextLine rest
    else fail
  | spot, c :: rest =>
    if spot = .nextLine ∧ isSpaceOrNewline c then readBasic lines .nextLine rest
    else
      let more (c : Char) (r : Except TomlError (Front (List Char))) :
          Except TomlError (Front (List Char)) :=
        r.map fun (s, rest) => (c :: s, rest)
      match c, rest with
      | '"', rest =>
        if !lines then .ok ([], rest)
        else match rest with
          | '"' :: '"' :: rest => .ok ([], rest)
          | rest => more '"' (readBasic lines .text rest)
      | '\\', 'u' :: a :: b :: c :: d :: rest => do
        more (← hexChar [a, b, c, d]) (readBasic lines .text rest)
      | '\\', 'U' :: a :: b :: c :: d :: e :: f :: g :: h :: rest => do
        more (← hexChar [a, b, c, d, e, f, g, h]) (readBasic lines .text rest)
      | '\\', c :: rest =>
        if lines ∧ c = '\n' then readBasic lines .nextLine rest
        else if lines ∧ isSpace c then readBasic lines .lineEnd rest
        else match escaped? c with
          | some c => more c (readBasic lines .text rest)
          | none => fail
      | '\\', [] => fail
      | c, rest =>
        if (if lines then isIllegalInLines c else isIllegal c) then fail
        else more c (readBasic lines .text rest)

def skipNewline : List Char → List Char
  | '\n' :: rest => rest
  | cs => cs

/-- up to two more quotes belong to the string -/
def moreQuotes (q : Char) (s : List Char) : List Char → List Char × List Char
  | a :: b :: rest =>
    if a = q then (if b = q then (s ++ [q, q], rest) else (s ++ [q], b :: rest))
    else (s, a :: b :: rest)
  | [a] => if a = q then (s ++ [q], []) else (s, [a])
  | [] => (s, [])

def readString? : List Char → Option (Except TomlError (Front String))
  | '"' :: '"' :: '"' :: rest => some do
    let (s, rest) ← readBasic true .text (skipNewline rest)
    let (s, rest) := moreQuotes '"' s rest
    return (String.ofList s, rest)
  | '"' :: rest => some do
    let (s, rest) ← readBasic false .text rest
    return (String.ofList s, rest)
  | '\'' :: '\'' :: '\'' :: rest => some do
    let (s, rest) ← readLiteralLines (skipNewline rest)
    let (s, rest) := moreQuotes '\'' s rest
    return (String.ofList s, rest)
  | '\'' :: rest => some do
    let (s, rest) ← readLiteral rest
    return (String.ofList s, rest)
  | _ => none

/-! ## dates and times -/

def readDigits? (n : Nat) (cs : List Char) : Option (Front Nat) :=
  let ds := cs.take n
  if ds.length = n ∧ ds.all Char.isDigit then some (Decimal.natOfDigits ds, cs.drop n) else none

def readPair? (lo hi : Nat) (cs : List Char) : Option (Front Nat) := do
  let (n, rest) ← readDigits? 2 cs
  if lo ≤ n ∧ n ≤ hi then some (n, rest) else none

def readChar? (c : Char) : List Char → Option (List Char)
  | d :: rest => if c = d then some rest else none
  | [] => none

/-- a year, a month and a day, which need not be in the calendar -/
def readDate? (cs : List Char) : Option (Front Date) := do
  let (year, cs) ← readDigits? 4 cs
  let cs ← readChar? '-' cs
  let (month, cs) ← readPair? 1 12 cs
  let cs ← readChar? '-' cs
  let (day, cs) ← readPair? 1 31 cs
  return (⟨year, month, day⟩, cs)

/-- a fraction of a second; digits beyond the microsecond do not count -/
def readMicros (cs : List Char) : Nat × List Char :=
  match cs with
  | '.' :: rest =>
    let ds := rest.takeWhile Char.isDigit
    if ds.isEmpty then (0, cs)
    else
      let six := ds.take 6
      (Decimal.natOfDigits (six ++ List.replicate (6 - six.length) '0'),
        rest.dropWhile Char.isDigit)
  | _ => (0, cs)

def readTime? (cs : List Char) : Option (Front TimeOfDay) := do
  let (hour, cs) ← readPair? 0 23 cs
  let cs ← readChar? ':' cs
  let (minute, cs) ← readPair? 0 59 cs
  let cs ← readChar? ':' cs
  let (second, cs) ← readPair? 0 59 cs
  let (micros, cs) := readMicros cs
  return (⟨hour, minute, second, micros⟩, cs)

/-- hours and minutes after the sign of an offset -/
def readOffset? (cs : List Char) : Option (Front Int) := do
  let (hour, cs) ← readPair? 0 23 cs
  let cs ← readChar? ':' cs
  let (minute, cs) ← readPair? 0 59 cs
  return (hour * 60 + minute, cs)

def readZone (cs : List Char) : Option Int × List Char :=
  match cs with
  | 'Z' :: rest => (some 0, rest)
  | 'z' :: rest => (some 0, rest)
  | '+' :: rest => match readOffset? rest with
    | some (n, rest) => (some n, rest)
    | none => (none, cs)
  | '-' :: rest => match readOffset? rest with
    | some (n, rest) => (some (-n), rest)
    | none => (none, cs)
  | _ => (none, cs)

def readTimeAfter (d : Date) (cs : List Char) : Moment × List Char :=
  match cs with
  | c :: rest =>
    if c = 'T' ∨ c = 't' ∨ c = ' ' then
      match readTime? rest with
      | some (t, rest) =>
        let (zone, rest) := readZone rest
        (.at d t zone, rest)
      | none => (.date d, cs)
    else (.date d, cs)
  | [] => (.date d, cs)

def readMoment? (cs : List Char) : Option (Except TomlError (Front Value)) :=
  match readDate? cs with
  | some (d, rest) =>
    let (m, rest) := readTimeAfter d rest
    some (if d.valid then .ok (.moment m, rest) else fail)
  | none => (readTime? cs).map fun (t, rest) => .ok (.moment (.time t), rest)

/-! ## numbers -/

/-- digits of a base at the front, single underscores between them; the underscores are left out -/
def readRun (isDigit : Char → Bool) : List Char → List Char × List Char
  | '_' :: d :: rest =>
    if isDigit d then let (ds, rest) := readRun isDigit rest; (d :: ds, rest)
    else ([], '_' :: d :: rest)
  | c :: rest =>
    if isDigit c then let (ds, rest) := readRun isDigit rest; (c :: ds, rest) else ([], c :: rest)
  | [] => ([], [])

/-- a run that starts with a digit -/
def readRun? (isDigit : Char → Bool) : List Char → Option (List Char × List Char)
  | c :: rest =>
    if isDigit c then let (ds, rest) := readRun isDigit rest; some (c :: ds, rest) else none
  | [] => none

def isDigitOf (base : Nat) (c : Char) : Bool := (hexValue? c).any (· < base)

def natOfBase (base : Nat) (ds : List Char) : Nat :=
  ds.foldl (fun n c => base * n + (hexValue? c).getD 0) 0

def readBased? : List Char → Option (Front Int)
  | '0' :: mark :: rest =>
    let base? := if mark = 'x' then some 16 else if mark = 'o' then some 8
      else if mark = 'b' then some 2 else none
    base?.bind fun base => (readRun? (isDigitOf base) rest).map fun (ds, rest) =>
      ((natOfBase base ds : Int), rest)
  | _ => none

def readWhole? : List Char → Option (List Char × List Char)
  | '0' :: rest => some (['0'], rest)
  | cs => readRun? Char.isDigit cs

def readFraction (cs : List Char) : List Char × List Char :=
  match cs with
  | '.' :: rest => (readRun? Char.isDigit rest).getD ([], cs)
  | _ => ([], cs)

def readExponent (cs : List Char) : Option Int × List Char :=
  match cs with
  | c :: rest =>
    if c = 'e' ∨ c = 'E' then
      let (neg, digits) := Decimal.readSign rest
      match readRun? Char.isDigit digits with
      | some (ds, rest) =>
        let n := Decimal.natOfDigits ds
        (some (if neg then -n else n), rest)
      | none => (none, cs)
    else (none, cs)
  | [] => (none, cs)

/-- decimal integers have at most this many digits -/
def mostDigits : Nat := 4300

def decimalInt (neg : Bool) (ds : List Char) : Except TomlError Value :=
  if ds.length > mostDigits then .error (.tooManyDigits ds.length)
  else
    let n : Int := Decimal.natOfDigits ds
    .ok (.int (if neg then -n else n))

def readNumber? (cs : List Char) : Option (Except TomlError (Front Value)) :=
  match readBased? cs with
  | some (n, rest) => some (.ok (.int n, rest))
  | none =>
    let (neg, digits) := Decimal.readSign cs
    (readWhole? digits).map fun (whole, rest) =>
      let (part, rest') := readFraction rest
      let (e, rest'') := readExponent rest'
      if part.isEmpty ∧ e.isNone then (decimalInt neg whole).map fun v => (v, rest)
      else .ok (.float (Decimal.ofScientific neg (Decimal.natOfDigits (whole ++ part))
        (e.getD 0 - part.length)), rest'')

/-- an infinity, or what is no number, at the front -/
def readSpecial? (cs : List Char) : Option (Front Value) :=
  let (neg, word) := Decimal.readSign cs
  match word with
  | 'i' :: 'n' :: 'f' :: rest => some (.float (Decimal.nearest neg (Decimal.two 1024) 1), rest)
  | 'n' :: 'a' :: 'n' :: rest => some (.float (0.0 / 0.0), rest)
  | _ => none

end ChipEight.Toml
