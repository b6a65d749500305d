import ChipEight.Instruction.Basic

/-!
# Instruction words

* `nibble k o`               four bits of the integer `o`, counted from the lowest;
* `Instruction.ofNibbles`    the instruction written by four nibbles, the highest first;
* `Instruction.decode o`     the instruction written by the lowest sixteen bits of `o`;
* `Instruction.encode i s`   the word of an instruction; `s` fills the nibble that shifts ignore.

Integers of any size and sign decode: bits above the sixteenth do not count.
-/

namespace ChipEight

/-- four bits of an integer; a negative one has infinitely many leading ones -/
def nibble (k : Nat) (o : Int) : Fin 16 :=
  ⟨(o / (Nat.pow 16 k : Nat) % 16).toNat, by omega⟩

def nibbles (o : Int) : List (Fin 16) := [nibble 3 o, nibble 2 o, nibble 1 o, nibble 0 o]

def byteOf (y n : Fin 16) : UInt8 := .ofNat (y * 16 + n)

def addressOf (x y n : Fin 16) : Address := ⟨x * 256 + y * 16 + n, by omega⟩

def wordOf (op x y n : Fin 16) : UInt16 := .ofNat (op * 4096 + x * 256 + y * 16 + n)

namespace Instruction

def ofNibbles (op x y n : Fin 16) : Instruction :=
  match op, x, y, n with
  | 0x0, 0x0, 0xE, 0x0 => clear
  | 0x0, 0x0, 0xE, 0xE => ret
  | 0x1, x, y, n => jump (addressOf x y n)
  | 0x2, x, y, n => call (addressOf x y n)
  | 0x3, x, y, n => skipIfByte x (byteOf y n)
  | 0x4, x, y, n => skipUnlessByte x (byteOf y n)
  | 0x5, x, y, 0x0 => skipIfEqual x y
  | 0x6, x, y, n => loadByte x (byteOf y n)
  | 0x7, x, y, n => addByte x (byteOf y n)
  | 0x8, x, y, 0x0 => copy x y
  | 0x8, x, y, 0x1 => or x y
  | 0x8, x, y, 0x2 => and x y
  | 0x8, x, y, 0x3 => xor x y
  | 0x8, x, y, 0x4 => add x y
  | 0x8, x, y, 0x5 => sub x y
  | 0x8, x, _, 0x6 => shiftRight x
  | 0x8, x, y, 0x7 => subFrom x y
  | 0x8, x, _, 0xE => shiftLeft x
  | 0x9, x, y, 0x0 => skipUnlessEqual x y
  | 0xA, x, y, n => loadIndex (addressOf x y n)
  | 0xB, x, y, n => jumpFrom (addressOf x y n)
  | 0xC, x, y, n => random x (byteOf y n)
  | 0xD, x, y, n => draw x y n
  | 0xE, x, 0x9, 0xE => skipIfPressed x
  | 0xE, x, 0xA, 0x1 => skipUnlessPressed x
  | 0xF, x, 0x0, 0x7 => readDelay x
  | 0xF, x, 0x0, 0xA => awaitKey x
  | 0xF, x, 0x1, 0x5 => setDelay x
  | 0xF, x, 0x1, 0x8 => setSound x
  | 0xF, x, 0x1, 0xE => addIndex x
  | 0xF, x, 0x2, 0x9 => glyph x
  | 0xF, x, 0x3, 0x3 => storeDecimal x
  | 0xF, x, 0x5, 0x5 => store x
  | 0xF, x, 0x6, 0x5 => load x
  | op, x, y, n => unknown (wordOf op x y n)

def decode (o : Int) : Instruction := ofNibbles (nibble 3 o) (nibble 2 o) (nibble 1 o) (nibble 0 o)

/-- the word with the operation `op`, register `x` and low byte `low` -/
def register1 (op : Nat) (x : Register) (low : Nat) : Nat := op * 4096 + x * 256 + low

/-- the word with the operation `op`, registers `x` and `y` and last nibble `n` -/
def register2 (op : Nat) (x y : Register) (n : Nat) : Nat := op * 4096 + x * 256 + y * 16 + n

def encode (i : Instruction) (spare : Fin 16) : Nat :=
  match i with
  | clear => 0x00E0
  | ret => 0x00EE
  | jump a => 0x1000 + a
  | call a => 0x2000 + a
  | skipIfByte x b => register1 0x3 x b.toNat
  | skipUnlessByte x b => register1 0x4 x b.toNat
  | skipIfEqual x y => register2 0x5 x y 0x0
  | loadByte x b => register1 0x6 x b.toNat
  | addByte x b => register1 0x7 x b.toNat
  | copy x y => register2 0x8 x y 0x0
  | or x y => register2 0x8 x y 0x1
  | and x y => register2 0x8 x y 0x2
  | xor x y => register2 0x8 x y 0x3
  | add x y => register2 0x8 x y 0x4
  | sub x y => register2 0x8 x y 0x5
  | shiftRight x => register2 0x8 x spare 0x6
  | subFrom x y => register2 0x8 x y 0x7
  | shiftLeft x => register2 0x8 x spare 0xE
  | skipUnlessEqual x y => register2 0x9 x y 0x0
  | loadIndex a => 0xA000 + a
  | jumpFrom a => 0xB000 + a
  | random x b => register1 0xC x b.toNat
  | draw x y n => register2 0xD x y n
  | skipIfPressed x => register1 0xE x 0x9E
  | skipUnlessPressed x => register1 0xE x 0xA1
  | readDelay x => register1 0xF x 0x07
  | awaitKey x => register1 0xF x 0x0A
  | setDelay x => register1 0xF x 0x15
  | setSound x => register1 0xF x 0x18
  | addIndex x => register1 0xF x 0x1E
  | glyph x => register1 0xF x 0x29
  | storeDecimal x => register1 0xF x 0x33
  | store x => register1 0xF x 0x55
  | load x => register1 0xF x 0x65
  | unknown w => w.toNat

end Instruction

end ChipEight
