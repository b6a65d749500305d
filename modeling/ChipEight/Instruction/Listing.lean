import ChipEight.Instruction.Basic
import ChipEight.Text.Hex

/-!
# Listings

* `Instruction.listing i`   an instruction as one line of a program listing: its operation, then
  its operands, registers as `V0`–`VF`, bytes, addresses and words in hexadecimal, and the height
  of a sprite in decimal;
* `Instruction.text i`      the same as a string.
-/

namespace ChipEight

namespace Instruction

def registerName (x : Register) : List Char := ['V', Hex.digit x]

def hexOperand (w n : Nat) : List Char := '0' :: 'x' :: Hex.fixed w n

def pair (a b : List Char) : List Char := a ++ ',' :: ' ' :: b

def registers (x y : Register) : List Char := pair (registerName x) (registerName y)

def immediate (x : Register) (byte : UInt8) : List Char :=
  pair (registerName x) (hexOperand 2 byte.toNat)

def operation (name : List Char) (operands : List Char) : List Char := name ++ ' ' :: operands

def listing : Instruction → List Char
  | clear => ['C', 'L', 'S']
  | ret => ['R', 'E', 'T']
  | jump a => operation ['J', 'P'] (hexOperand 3 a)
  | jumpFrom a => operation ['J', 'P'] (pair ['V', '0'] (hexOperand 3 a))
  | call a => operation ['C', 'A', 'L', 'L'] (hexOperand 3 a)
  | skipIfByte x b => operation ['S', 'E'] (immediate x b)
  | skipUnlessByte x b => operation ['S', 'N', 'E'] (immediate x b)
  | skipIfEqual x y => operation ['S', 'E'] (registers x y)
  | skipUnlessEqual x y => operation ['S', 'N', 'E'] (registers x y)
  | skipIfPressed x => operation ['S', 'K', 'P'] (registerName x)
  | skipUnlessPressed x => operation ['S', 'K', 'N', 'P'] (registerName x)
  | loadByte x b => operation ['L', 'D'] (immediate x b)
  | addByte x b => operation ['A', 'D', 'D'] (immediate x b)
  | copy x y => operation ['L', 'D'] (registers x y)
  | or x y => operation ['O', 'R'] (registers x y)
  | and x y => operation ['A', 'N', 'D'] (registers x y)
  | xor x y => operation ['X', 'O', 'R'] (registers x y)
  | add x y => operation ['A', 'D', 'D'] (registers x y)
  | sub x y => operation ['S', 'U', 'B'] (registers x y)
  | subFrom x y => operation ['S', 'U', 'B', 'N'] (registers x y)
  | shiftRight x => operation ['S', 'H', 'R'] (registerName x)
  | shiftLeft x => operation ['S', 'H', 'L'] (registerName x)
  | random x b => operation ['R', 'N', 'D'] (immediate x b)
  | loadIndex a => operation ['L', 'D'] (pair ['I'] (hexOperand 3 a))
  | addIndex x => operation ['A', 'D', 'D'] (pair ['I'] (registerName x))
  | glyph x => operation ['L', 'D'] (pair ['F'] (registerName x))
  | storeDecimal x => operation ['L', 'D'] (pair ['B'] (registerName x))
  | store x => operation ['L', 'D'] (pair ['[', 'I', ']'] (registerName x))
  | load x => operation ['L', 'D'] (pair (registerName x) ['[', 'I', ']'])
  | readDelay x => operation ['L', 'D'] (pair (registerName x) ['D', 'T'])
  | setDelay x => operation ['L', 'D'] (pair ['D', 'T'] (registerName x))
  | setSound x => operation ['L', 'D'] (pair ['S', 'T'] (registerName x))
  | awaitKey x => operation ['L', 'D'] (pair (registerName x) ['K'])
  | draw x y n => operation ['D', 'R', 'W'] (pair (registers x y) (Nat.toDigits 10 n))
  | unknown w => operation ['?', '?', '?'] (hexOperand 4 w.toNat)

def text (i : Instruction) : String := String.ofList i.listing

end Instruction

end ChipEight
