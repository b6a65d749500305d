import ChipEight.Keyboard.Codes
import ChipEight.Machine.Keypad
import ChipEight.Text.Quoted
import ChipEight.Text.UpperCase

/-!
# Names of keys

* `Key.ofName s`       the key of the keypad that a name means: one hexadecimal digit, with or
  without a `K` in front, in either case;
* `physicalCode s`     the code of the physical key that a name means; `enter` is the return key;
* `NameError`          a name that means no key.

Blanks around a name do not count. Names are compared in upper case, a single character in lower
case.
-/

namespace ChipEight.Keyboard

inductive NameError where
  /-- no key of the keypad; the name is shown as it was compared -/
  | key (name : String)
  /-- no physical key; the name is shown as it was given -/
  | physical (name : String)
  deriving DecidableEq, Repr

def NameError.message : NameError → String
  | key name => "Invalid CHIP-8 key name: " ++ Text.quoted name
  | physical name => "Invalid key name: " ++ Text.quoted name

/-- a name as it is compared: without blanks, in upper case, with a `K` in front -/
def comparedName (cs : List Char) : List Char :=
  match Text.upperList (Text.stripList cs) with
  | 'K' :: rest => 'K' :: rest
  | cs => 'K' :: cs

def keyNamed? (cs : List Char) : Option Key :=
  (List.finRange 16).find? fun k => cs == ['K', Hex.digit k]

/-- the name of a physical key as it is looked up -/
def lookedUpName (cs : List Char) : List Char :=
  let cs := Text.stripList cs
  if cs.map Text.lowerAscii = ['e', 'n', 't', 'e', 'r'] then ['R', 'E', 'T', 'U', 'R', 'N']
  else match cs with
    | [c] => [Text.lowerAscii c]
    | cs => Text.upperList cs

def physicalCode (name : String) : Except NameError Int :=
  match codeOf? (String.ofList (lookedUpName name.toList)) with
  | some code => .ok code
  | none => .error (.physical name)

end ChipEight.Keyboard

namespace ChipEight

def Key.ofName (name : String) : Except Keyboard.NameError Key :=
  let compared := Keyboard.comparedName name.toList
  match Keyboard.keyNamed? compared with
  | some k => .ok k
  | none => .error (.key (String.ofList compared))

end ChipEight
