import ChipEight.Decimal.Shortest
import ChipEight.Text.Digit

/-!
# Format specifications for numbers

`[[fill]align][sign][z][#][0][width][grouping][.precision][kind]`

* `FormatSpec`            a specification, read into its parts;
* `FormatSpec.parse`      the parts of a text, or what is wrong with it;
* `FormatSpec.format`     a double written as a specification says;
* `shortestText x`        the specification without parts: the shortest digits, positional
  from `0.0001` up to below `10^16`.

Widths and precisions may be written with the decimal digits of any script.
-/

namespace ChipEight.Decimal

inductive Align where
  | left | right | centre | afterSign
  deriving DecidableEq, Repr

def Align.ofChar? : Char → Option Align
  | '<' => some .left
  | '>' => some .right
  | '^' => some .centre
  | '=' => some .afterSign
  | _ => none

structure FormatSpec where
  fill : Char := ' '
  align : Align := .right
  sign : Option Char := none
  plainZero : Bool := false
  /-- keep the decimal point and, in the general form, the zeros at the end -/
  alternate : Bool := false
  width : Option Nat := none
  grouping : Option Char := none
  precision : Option Nat := none
  kind : Option Char := none

inductive FormatError where
  | tooManyDigits
  | commaAndUnderscore
  | missingPrecision
  | invalid (spec : String)
  | grouping (separator kind : Char)
  | precisionTooBig
  | unknownKind (kind : Char)
  /-- there is no room for a text that wide -/
  | tooWide

def FormatError.show (c : Char) : String :=
  if 32 < c.toNat ∧ c.toNat < 128 then String.singleton c
  else "\\x" ++ String.ofList (Nat.toDigits 16 c.toNat)

def FormatError.message : FormatError → String
  | .tooManyDigits => "Too many decimal digits in format string"
  | .commaAndUnderscore => "Cannot specify both ',' and '_'."
  | .missingPrecision => "Format specifier missing precision"
  | .invalid spec => "Invalid format specifier '" ++ spec ++ "' for object of type 'float'"
  | .grouping sep kind =>
    "Cannot specify '" ++ String.singleton sep ++ "' with '" ++ FormatError.show kind ++ "'."
  | .precisionTooBig => "precision too big"
  | .unknownKind kind =>
    "Unknown format code '" ++ FormatError.show kind ++ "' for object of type 'float'"
  | .tooWide => ""

/-! ## reading a specification -/

abbrev FormatSpec.Partial := FormatSpec × List Char

def FormatSpec.readAlign : List Char → Partial × Bool × Bool
  | a :: b :: rest =>
    match Align.ofChar? b with
    | some al => (({ fill := a, align := al }, rest), true, true)
    | none =>
      match Align.ofChar? a with
      | some al => (({ align := al }, b :: rest), false, true)
      | none => (({}, a :: b :: rest), false, false)
  | [a] =>
    match Align.ofChar? a with
    | some al => (({ align := al }, []), false, true)
    | none => (({}, [a]), false, false)
  | [] => (({}, []), false, false)

def FormatSpec.readSign : Partial → Partial
  | (f, '+' :: rest) => ({ f with sign := some '+' }, rest)
  | (f, '-' :: rest) => ({ f with sign := some '-' }, rest)
  | (f, ' ' :: rest) => ({ f with sign := some ' ' }, rest)
  | p => p

def FormatSpec.readPlainZero : Partial → Partial
  | (f, 'z' :: rest) => ({ f with plainZero := true }, rest)
  | p => p

def FormatSpec.readAlternate : Partial → Partial
  | (f, '#' :: rest) => ({ f with alternate := true }, rest)
  | p => p

def FormatSpec.readZeroFill (filled aligned : Bool) : Partial → Partial
  | (f, '0' :: rest) =>
    if filled then (f, '0' :: rest)
    else ({ f with fill := '0', align := if aligned then f.align else .afterSign }, rest)
  | p => p

def FormatSpec.largest : Nat := two 63 - 1

/-- the number at the front, `none` without one -/
def FormatSpec.readNumber (cs : List Char) : Except FormatError (Option Nat × List Char) :=
  let (ds, rest) := Text.leadingDigits cs
  if ds.isEmpty then .ok (none, rest)
  else
    let n := ds.foldl (fun n d => 10 * n + d) 0
    if n > largest then .error .tooManyDigits else .ok (some n, rest)

def FormatSpec.readGrouping : Partial → Except FormatError Partial
  | (_, ',' :: '_' :: _) => .error .commaAndUnderscore
  | (_, '_' :: ',' :: _) => .error .commaAndUnderscore
  | (f, ',' :: rest) => .ok ({ f with grouping := some ',' }, rest)
  | (f, '_' :: rest) => .ok ({ f with grouping := some '_' }, rest)
  | p => .ok p

def FormatSpec.readPrecision : Partial → Except FormatError Partial
  | (f, '.' :: rest) => do
    match ← readNumber rest with
    | (none, _) => .error .missingPrecision
    | (some n, rest) => .ok ({ f with precision := some n }, rest)
  | p => .ok p

/-- at most one character is left for the kind, and a NUL stands for no kind; `spec` is the whole
text, for the error -/
def FormatSpec.readKind (spec : String) : Partial → Except FormatError FormatSpec
  | (f, []) => .ok f
  | (f, [c]) => .ok { f with kind := if c.toNat = 0 then none else some c }
  | (_, _ :: _ :: _) => .error (.invalid spec)

/-- groups are allowed in decimal kinds only, underscores also in the binary ones -/
def FormatSpec.checkGrouping (f : FormatSpec) : Except FormatError FormatSpec :=
  match f.grouping, f.kind with
  | some sep, some kind =>
    if "defgEG%F".toList.contains kind then .ok f
    else if sep = '_' ∧ "boxX".toList.contains kind then .ok f
    else .error (.grouping sep kind)
  | _, _ => .ok f

def FormatSpec.parse (s : String) : Except FormatError FormatSpec := do
  let (p, filled, aligned) := readAlign s.toList
  let (f, rest) := readZeroFill filled aligned (readAlternate (readPlainZero (readSign p)))
  let (width, rest) ← readNumber rest
  let p ← readGrouping ({ f with width }, rest)
  let p ← readPrecision p
  checkGrouping (← readKind s p)

/-! ## the digits of a number -/

/-- what is written of a number apart from its sign: whole digits, and all that follows them -/
structure Figures where
  whole : List Char
  pointed : Bool
  rest : List Char

def exponentText (e : Int) : List Char :=
  let ds := digitsOf e.natAbs
  'e' :: (if e < 0 then '-' else '+') :: (if ds.length < 2 then '0' :: ds else ds)

/-- digits with the point after the first one, padded to `total` digits, and an exponent -/
def exponential (d : Digits) (total : Nat) (keepPoint : Bool) : Figures :=
  let tail := d.text.drop 1 ++ List.replicate (total - d.text.length) '0'
  ⟨d.text.take 1, keepPoint || !tail.isEmpty, tail ++ exponentText (d.point - 1)⟩

/-- digits with the point in its place and at least `decimals` of them after it -/
def positional (d : Digits) (decimals : Nat) (keepPoint : Bool) : Figures :=
  let lead := List.replicate (-d.point).toNat '0'
  let whole := d.text.take d.point.toNat
  let tail := lead ++ d.text.drop d.point.toNat
  let whole := whole ++ List.replicate (d.point.toNat - d.text.length) '0'
  let tail := tail ++ List.replicate (decimals - tail.length) '0'
  ⟨if whole.isEmpty then ['0'] else whole, keepPoint || !tail.isEmpty, tail⟩

/-- no double has a digit other than zero after these decimals -/
def mostDecimals : Nat := 1074

/-- no double has more significant digits -/
def mostSignificant : Nat := 767

def fixedFigures (num den n : Nat) (keepPoint : Bool) : Figures :=
  let exact := min n mostDecimals
  let ds := digitsOf (roundDiv (num * ten exact) den)
  let ds := List.replicate (exact + 1 - ds.length) '0' ++ ds
  let whole := ds.take (ds.length - exact)
  let tail := ds.drop (ds.length - exact) ++ List.replicate (n - exact) '0'
  ⟨whole, keepPoint || n != 0, tail⟩

/-- `n` significant digits, in the exponential form when the point lies far away -/
def generalFigures (num den n : Nat) (alternate withDecimal : Bool) : Figures :=
  let n := max n 1
  let d := Digits.significant num den (min n mostSignificant)
  let d := if alternate then d
    else { d with text := match dropZeros d.text with | [] => ['0'] | ds => ds }
  let limit : Int := if withDecimal then n - 1 else n
  if d.point ≤ -4 ∨ d.point > limit then exponential d (if alternate then n else 0) alternate
  else
    let decimals := if alternate then (n - d.point).toNat else 0
    positional d (if withDecimal then max decimals 1 else decimals) alternate

def shortestFigures (m : Nat) (e : Int) (alternate : Bool) : Figures :=
  let d := Digits.shortest m e
  if d.point ≤ -4 ∨ d.point > 16 then exponential d 0 alternate else positional d 1 alternate

def Figures.isZero (f : Figures) : Bool :=
  (f.whole ++ f.rest.takeWhile (· != 'e')).all (· == '0')

/-! ## groups, sign and padding -/

/-- digits in groups of three from the right, with zeros in front until `min` characters are
written; `fuel` bounds the number of groups -/
def grouped (sep : Char) : Nat → List Char → Int → List Char
  | 0, _, _ => []
  | fuel + 1, reversed, min =>
    let len := Nat.min 3 (max (max reversed.length min.toNat) 1)
    let group := reversed.take len
    let group := group ++ List.replicate (len - group.length) '0'
    let reversed := reversed.drop len
    let min := min - len
    if reversed.isEmpty ∧ min ≤ 0 then group.reverse
    else grouped sep fuel reversed (min - 1) ++ sep :: group.reverse

def FormatSpec.wholePart (f : FormatSpec) (digits : List Char) (min : Int) : List Char :=
  if digits.isEmpty then []
  else match f.grouping with
    | some sep => grouped sep (digits.length + min.toNat + 1) digits.reverse min
    | none => List.replicate (min.toNat - digits.length) '0' ++ digits

def FormatSpec.signPart (f : FormatSpec) (neg : Bool) : List Char :=
  if neg then ['-'] else match f.sign with
    | some '+' => ['+']
    | some ' ' => [' ']
    | _ => []

def FormatSpec.layout (f : FormatSpec) (neg : Bool) (figures : Figures) : List Char :=
  let sign := f.signPart neg
  let tail := (if figures.pointed then ['.'] else []) ++ figures.rest
  let fixedPart := sign.length + tail.length
  let width := f.width.getD 0
  let min : Int := if f.fill = '0' ∧ f.align = .afterSign then (width : Int) - fixedPart else 0
  let whole := f.wholePart figures.whole min
  let pad := width - (fixedPart + whole.length)
  let blank (n : Nat) := List.replicate n f.fill
  match f.align with
  | .left => sign ++ whole ++ tail ++ blank pad
  | .right => blank pad ++ sign ++ whole ++ tail
  | .centre => blank (pad / 2) ++ sign ++ whole ++ tail ++ blank (pad - pad / 2)
  | .afterSign => sign ++ blank pad ++ whole ++ tail

/-! ## formatting -/

/-- the figures of a finite number -/
def FormatSpec.figures (f : FormatSpec) (m : Nat) (e : Int) : Except FormatError Figures :=
  let (num, den) := fraction m e
  let p := f.precision.getD 6
  match f.kind with
  | none => .ok <| match f.precision with
    | none => shortestFigures m e f.alternate
    | some p => generalFigures num den p f.alternate true
  | some c =>
    if c = 'e' ∨ c = 'E' then
      let d := Digits.significant num den (min (p + 1) mostSignificant)
      .ok (exponential d (p + 1) f.alternate)
    else if c = 'f' ∨ c = 'F' then .ok (fixedFigures num den p f.alternate)
    else if c = 'g' ∨ c = 'G' ∨ c = 'n' then .ok (generalFigures num den p f.alternate false)
    else if c = '%' then .ok (fixedFigures num den p f.alternate)
    else .error (.unknownKind c)

def FormatSpec.knownKind (f : FormatSpec) : Bool :=
  match f.kind with
  | none => true
  | some c => "eEfFgGn%".toList.contains c

def FormatSpec.largestPrecision : Nat := two 31 - 1

/-- a width from here on leaves no room -/
def FormatSpec.widthLimit : Nat := two 32

/-- a double as the specification says; a percentage is a hundred times the double, rounded -/
def FormatSpec.format (f : FormatSpec) (x : Float) : Except FormatError String := do
  if !f.knownKind then throw (.unknownKind (f.kind.getD ' '))
  if f.precision.getD 0 > largestPrecision then throw .precisionTooBig
  let percent := f.kind = some '%'
  let capital := f.kind.any fun c => c = 'E' ∨ c = 'F' ∨ c = 'G'
  let (neg, figures) ← match Binary.ofFloat (if percent then x * 100 else x) with
    | .nan => pure (false, (⟨[], false, ['n', 'a', 'n']⟩ : Figures))
    | .infinite neg => pure (neg, ⟨[], false, ['i', 'n', 'f']⟩)
    | .finite neg m e => do
      let g ← f.figures m e
      pure (neg && !(f.plainZero && g.isZero), g)
  if f.width.getD 0 ≥ widthLimit then throw .tooWide
  let rest := if capital then figures.rest.map Char.toUpper else figures.rest
  let rest := if percent then rest ++ ['%'] else rest
  return String.ofList (f.layout neg { figures with rest })

def shortestText (x : Float) : String :=
  match Binary.ofFloat x with
  | .nan => "nan"
  | .infinite neg => if neg then "-inf" else "inf"
  | .finite neg m e => String.ofList (({} : FormatSpec).layout neg (shortestFigures m e false))

def fixedText (n : Nat) (x : Float) : String :=
  match FormatSpec.format { kind := some 'f', precision := some n } x with
  | .ok s => s
  | .error _ => ""

end ChipEight.Decimal
