import ChipEight.Text.Printable

/-!
# Quoted text

* `Quoted.delimiter cs`   the quote that encloses `cs`: single, unless `cs` holds a single quote
  and no double one;
* `Quoted.escape q c`     how `c` is written between quotes `q`;
* `quoted s`              `s` between quotes, on one line of printable characters.
-/

namespace ChipEight.Text

def Quoted.code : Nat → Nat → List Char
  | 0, _ => []
  | w + 1, n => Quoted.code w (n / 16) ++ [Nat.digitChar (n % 16)]

def Quoted.delimiter (cs : List Char) : Char :=
  if cs.contains '\'' && !cs.contains '"' then '"' else '\''

def Quoted.escape (q c : Char) : List Char :=
  if c = q ∨ c = '\\' then ['\\', c]
  else if c = '\n' then ['\\', 'n']
  else if c = '\r' then ['\\', 'r']
  else if c = '\t' then ['\\', 't']
  else if isPrintable c then [c]
  else if c.toNat < 0x100 then '\\' :: 'x' :: Quoted.code 2 c.toNat
  else if c.toNat < 0x10000 then '\\' :: 'u' :: Quoted.code 4 c.toNat
  else '\\' :: 'U' :: Quoted.code 8 c.toNat

def quotedList (cs : List Char) : List Char :=
  let q := Quoted.delimiter cs
  q :: cs.flatMap (Quoted.escape q) ++ [q]

def quoted (s : String) : String := String.ofList (quotedList s.toList)

example : quotedList ['i', 't', '\'', 's'] = ['"', 'i', 't', '\'', 's', '"'] := by decide

end ChipEight.Text
