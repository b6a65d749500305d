import ChipEight.Machine.Fault

/-!
# The keypad

* `Key`                the sixteen keys, by their values;
* `Key.name`           `K0`–`KF`;
* `Keypad`             which keys are down; the highest bit is key 0;
* `Keypad.isDown`      a key given as any integer; what is no key is not down;
* `Keypad.press`, `release`   what is no key changes nothing;
* `Keypad.ofBits`      the keypad given by exactly sixteen bits.
-/

namespace ChipEight

abbrev Key := Fin 16

namespace Key

def name (k : Key) : String := String.ofList ['K', Hex.digit k]

def description (k : Key) : String := "<Chip8Key." ++ k.name ++ ": " ++ toString k.val ++ ">"

def ofNat (n : Nat) : Key := ⟨n % 16, by omega⟩

def ofInt? : Int → Option Key
  | .ofNat n => if h : n < 16 then some ⟨n, h⟩ else none
  | .negSucc _ => none

def invalid (n : Int) : String := toString n ++ " is not a valid Chip8Key"

end Key

abbrev Keypad := BitVec 16

namespace Keypad

def none : Keypad := 0

def only (k : Key) : Keypad := BitVec.twoPow 16 15 >>> k.val

def holds (p : Keypad) (k : Key) : Bool := p.getMsbD k

def isDown (p : Keypad) (n : Int) : Bool :=
  match Key.ofInt? n with
  | some k => p.holds k
  | .none => false

def press (p : Keypad) (n : Int) : Keypad :=
  match Key.ofInt? n with
  | some k => p ||| only k
  | .none => p

def release (p : Keypad) (n : Int) : Keypad :=
  match Key.ofInt? n with
  | some k => p &&& ~~~ only k
  | .none => p

def pressed (p : Keypad) : List Key := (List.finRange 16).filter p.holds

def ofBits (bits : List Bool) : Except WrongSize Keypad :=
  if bits.length = 16 then
    .ok (bits.foldl (fun p b => (p <<< 1) ||| (BitVec.ofBool b).setWidth 16) 0)
  else .error ⟨.keypad, bits.length⟩

def description (p : Keypad) : String :=
  "<KeyMatrix pressed=[" ++ ", ".intercalate (p.pressed.map Key.description) ++ "]>"

end Keypad

end ChipEight
