/-!
# Instructions

* `Instruction`           what an instruction word tells the machine to do; `x` and `y` are
  registers, `byte` an immediate byte, `addr` an address of twelve bits, `n` a number of rows;
* `Instruction.rolls`     the instruction takes a random byte;
* `Instruction.kind`      the name of its kind;
* `Instruction.mnemonic`  the same in capitals;
* `Instruction.operands`  what it works on.

A word that means nothing is an instruction too, `unknown`: it is reported and skipped.
-/

namespace ChipEight

abbrev Register := Fin 16

abbrev Address := Fin 4096

inductive Instruction where
  | clear
  | ret
  | jump (addr : Address)
  | jumpFrom (addr : Address)
  | call (addr : Address)
  | skipIfByte (x : Register) (byte : UInt8)
  | skipUnlessByte (x : Register) (byte : UInt8)
  | skipIfEqual (x y : Register)
  | skipUnlessEqual (x y : Register)
  | skipIfPressed (x : Register)
  | skipUnlessPressed (x : Register)
  | loadByte (x : Register) (byte : UInt8)
  | addByte (x : Register) (byte : UInt8)
  | copy (x y : Register)
  | or (x y : Register)
  | and (x y : Register)
  | xor (x y : Register)
  | add (x y : Register)
  | sub (x y : Register)
  | subFrom (x y : Register)
  | shiftRight (x : Register)
  | shiftLeft (x : Register)
  | random (x : Register) (byte : UInt8)
  | loadIndex (addr : Address)
  | addIndex (x : Register)
  | glyph (x : Register)
  | storeDecimal (x : Register)
  | store (x : Register)
  | load (x : Register)
  | readDelay (x : Register)
  | setDelay (x : Register)
  | setSound (x : Register)
  | awaitKey (x : Register)
  | draw (x y : Register) (n : Fin 16)
  | unknown (word : UInt16)
  deriving DecidableEq, Repr

inductive Operands where
  | none
  | address (addr : Address)
  | register (x : Register)
  | registers (x y : Register)
  | immediate (x : Register) (byte : UInt8)
  | sprite (x y : Register) (n : Fin 16)
  | word (word : UInt16)
  deriving DecidableEq, Repr

namespace Instruction

def rolls : Instruction → Bool
  | random _ _ => true
  | _ => false

def kind : Instruction → String
  | clear => "Cls"
  | ret => "Ret"
  | jump _ => "Jp"
  | jumpFrom _ => "JpV0"
  | call _ => "Call"
  | skipIfByte _ _ => "SeByte"
  | skipUnlessByte _ _ => "SneByte"
  | skipIfEqual _ _ => "SeReg"
  | skipUnlessEqual _ _ => "SneReg"
  | skipIfPressed _ => "Skp"
  | skipUnlessPressed _ => "Sknp"
  | loadByte _ _ => "LdByte"
  | addByte _ _ => "AddByte"
  | copy _ _ => "LdReg"
  | or _ _ => "OrReg"
  | and _ _ => "AndReg"
  | xor _ _ => "XorReg"
  | add _ _ => "AddRegCarry"
  | sub _ _ => "SubReg"
  | subFrom _ _ => "SubNReg"
  | shiftRight _ => "Shr"
  | shiftLeft _ => "Shl"
  | random _ _ => "Rnd"
  | loadIndex _ => "LdI"
  | addIndex _ => "AddI"
  | glyph _ => "LdFont"
  | storeDecimal _ => "StoreBcd"
  | store _ => "Store"
  | load _ => "Read"
  | readDelay _ => "LdRegDt"
  | setDelay _ => "LdDt"
  | setSound _ => "LdSt"
  | awaitKey _ => "KeyWait"
  | draw _ _ _ => "Drw"
  | unknown _ => "Unknown"

def mnemonic (i : Instruction) : String := i.kind.toUpper

def operands : Instruction → Operands
  | clear => .none
  | ret => .none
  | jump a => .address a
  | jumpFrom a => .address a
  | call a => .address a
  | skipIfByte x b => .immediate x b
  | skipUnlessByte x b => .immediate x b
  | skipIfEqual x y => .registers x y
  | skipUnlessEqual x y => .registers x y
  | skipIfPressed x => .register x
  | skipUnlessPressed x => .register x
  | loadByte x b => .immediate x b
  | addByte x b => .immediate x b
  | copy x y => .registers x y
  | or x y => .registers x y
  | and x y => .registers x y
  | xor x y => .registers x y
  | add x y => .registers x y
  | sub x y => .registers x y
  | subFrom x y => .registers x y
  | shiftRight x => .register x
  | shiftLeft x => .register x
  | random x b => .immediate x b
  | loadIndex a => .address a
  | addIndex x => .register x
  | glyph x => .register x
  | storeDecimal x => .register x
  | store x => .register x
  | load x => .register x
  | readDelay x => .register x
  | setDelay x => .register x
  | setSound x => .register x
  | awaitKey x => .register x
  | draw x y n => .sprite x y n
  | unknown w => .word w

end Instruction

end ChipEight
