import ChipEight.Instruction.Word

/-!
# The nibbles of a word

* `nibbles_word`       the nibbles of a word that is put together from four of them;
* `decode_register2`   so a word of an operation on two registers decodes by them;
* `decode_register1`   and one of an operation on a register and a byte by the two halves of the byte.
-/

namespace ChipEight

theorem val_nibble (k n : Nat) : (nibble k n).val = n / Nat.pow 16 k % 16 := by
  show ((n : Int) / (Nat.pow 16 k : Nat) % 16).toNat = _
  omega

theorem nibbles_word (op x y n : Fin 16) :
    nibble 3 (op * 4096 + x * 256 + y * 16 + n : Nat) = op ∧
      nibble 2 (op * 4096 + x * 256 + y * 16 + n : Nat) = x ∧
      nibble 1 (op * 4096 + x * 256 + y * 16 + n : Nat) = y ∧
      nibble 0 (op * 4096 + x * 256 + y * 16 + n : Nat) = n := by
  refine ⟨?_, ?_, ?_, ?_⟩
  all_goals
    apply Fin.ext
    rw [val_nibble, Nat.pow_eq]
    omega

def halves (b : UInt8) : Fin 16 × Fin 16 :=
  (⟨b.toNat / 16, by have := b.toNat_lt; omega⟩, ⟨b.toNat % 16, by omega⟩)

theorem byteOf_halves (b : UInt8) : byteOf (halves b).1 (halves b).2 = b := by
  apply UInt8.toNat.inj
  have hlt := b.toNat_lt
  show (b.toNat / 16 * 16 + b.toNat % 16) % 2 ^ 8 = b.toNat
  omega

namespace Instruction

theorem decode_register2 (op x y n : Fin 16) :
    decode (register2 op x y n : Nat) = ofNibbles op x y n := by
  obtain ⟨hop, hx, hy, hn⟩ := nibbles_word op x y n
  rw [decode, register2, hop, hx, hy, hn]

theorem decode_register1 (op x : Fin 16) (b : UInt8) :
    decode (register1 op x b.toNat : Nat) = ofNibbles op x (halves b).1 (halves b).2 := by
  have hword : register1 op x b.toNat = register2 op x (halves b).1 (halves b).2 := by
    show op.val * 4096 + x.val * 256 + b.toNat =
      op.val * 4096 + x.val * 256 + b.toNat / 16 * 16 + b.toNat % 16
    omega
  rw [hword, decode_register2]

end Instruction

end ChipEight
