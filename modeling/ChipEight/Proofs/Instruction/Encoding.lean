import ChipEight.Proofs.Instruction.Words

/-!
# Words and the instructions they write

* `decode_emod`        only the lowest sixteen bits of an integer count;
* `encode_decode`      a word is the encoding of what it decodes to, whatever that is;
* `decode_encode`      an instruction that means something decodes from each of its words;
* `decode_eq_unknown_iff`   so a word means nothing just if no instruction that means something has it.
-/

namespace ChipEight

theorem nibble_emod {k : Nat} (hk : k < 4) (o : Int) : nibble k (o % 65536) = nibble k o := by
  apply Fin.ext
  show (o % 65536 / (Nat.pow 16 k : Nat) % 16).toNat = (o / (Nat.pow 16 k : Nat) % 16).toNat
  obtain rfl | rfl | rfl | rfl : k = 0 ∨ k = 1 ∨ k = 2 ∨ k = 3 := by omega
  all_goals
    simp only [Nat.pow_eq]
    omega

theorem word_nibbles (o : Int) :
    ((nibble 3 o * 4096 + nibble 2 o * 256 + nibble 1 o * 16 + nibble 0 o : Nat) : Int) =
      o % 65536 := by
  simp only [nibble, Nat.pow_eq]
  omega

theorem toNat_byteOf (y n : Fin 16) : (byteOf y n).toNat = y * 16 + n := by
  show (y.val * 16 + n.val) % 2 ^ 8 = _
  omega

theorem toNat_wordOf (op x y n : Fin 16) :
    (wordOf op x y n).toNat = op * 4096 + x * 256 + y * 16 + n := by
  show (op.val * 4096 + x.val * 256 + y.val * 16 + n.val) % 2 ^ 16 = _
  omega

def thirds (a : Address) : Fin 16 × Fin 16 × Fin 16 :=
  (⟨a / 256, by omega⟩, ⟨a / 16 % 16, by omega⟩, ⟨a % 16, by omega⟩)

theorem addressOf_thirds (a : Address) :
    addressOf (thirds a).1 (thirds a).2.1 (thirds a).2.2 = a := by
  apply Fin.ext
  show a.val / 256 * 256 + a.val / 16 % 16 * 16 + a.val % 16 = a.val
  omega

namespace Instruction

/-- the instruction means something -/
def Known (i : Instruction) : Prop := ∀ w, i ≠ unknown w

theorem decode_emod (o : Int) : decode (o % 65536) = decode o := by
  rw [decode, nibble_emod (by decide), nibble_emod (by decide), nibble_emod (by decide),
    nibble_emod (by decide), ← decode]

/-! ## from words -/

theorem encode_ofNibbles (op x y n : Fin 16) :
    encode (ofNibbles op x y n) y = op * 4096 + x * 256 + y * 16 + n := by
  unfold ofNibbles
  split
  all_goals simp only [encode, register1, register2, toNat_byteOf, toNat_wordOf, addressOf]
  all_goals omega

theorem encode_decode (o : Int) : (encode (decode o) (nibble 1 o) : Int) = o % 65536 := by
  rw [decode, encode_ofNibbles, word_nibbles]

/-! ## from instructions -/

theorem decode_addressed (op : Fin 16) {f : Address → Instruction}
    (h : ∀ x y n, ofNibbles op x y n = f (addressOf x y n)) (a : Address) :
    decode (op * 4096 + a : Nat) = f a := by
  have hword : op * 4096 + a.val =
      register2 op (thirds a).1 (thirds a).2.1 (thirds a).2.2 := by
    show op * 4096 + a.val = op * 4096 + a.val / 256 * 256 + a.val / 16 % 16 * 16 + a.val % 16
    omega
  rw [hword, decode_register2, h, addressOf_thirds]

theorem decode_immediate (op : Fin 16) {f : Register → UInt8 → Instruction}
    (h : ∀ x y n, ofNibbles op x y n = f x (byteOf y n)) (x : Register) (b : UInt8) :
    decode (register1 op x b.toNat : Nat) = f x b := by
  rw [decode_register1, h, byteOf_halves]

theorem decode_encode {i : Instruction} (hi : i.Known) (spare : Fin 16) :
    decode (encode i spare) = i := by
  cases i with
  | clear => exact decode_register2 0x0 0x0 0xE 0x0
  | ret => exact decode_register2 0x0 0x0 0xE 0xE
  | jump a => exact decode_addressed 0x1 (fun _ _ _ => rfl) a
  | call a => exact decode_addressed 0x2 (fun _ _ _ => rfl) a
  | skipIfByte x b => exact decode_immediate 0x3 (fun _ _ _ => rfl) x b
  | skipUnlessByte x b => exact decode_immediate 0x4 (fun _ _ _ => rfl) x b
  | skipIfEqual x y => exact decode_register2 0x5 x y 0x0
  | loadByte x b => exact decode_immediate 0x6 (fun _ _ _ => rfl) x b
  | addByte x b => exact decode_immediate 0x7 (fun _ _ _ => rfl) x b
  | copy x y => exact decode_register2 0x8 x y 0x0
  | or x y => exact decode_register2 0x8 x y 0x1
  | and x y => exact decode_register2 0x8 x y 0x2
  | xor x y => exact decode_register2 0x8 x y 0x3
  | add x y => exact decode_register2 0x8 x y 0x4
  | sub x y => exact decode_register2 0x8 x y 0x5
  | shiftRight x => exact decode_register2 0x8 x spare 0x6
  | subFrom x y => exact decode_register2 0x8 x y 0x7
  | shiftLeft x => exact decode_register2 0x8 x spare 0xE
  | skipUnlessEqual x y => exact decode_register2 0x9 x y 0x0
  | loadIndex a => exact decode_addressed 0xA (fun _ _ _ => rfl) a
  | jumpFrom a => exact decode_addressed 0xB (fun _ _ _ => rfl) a
  | random x b => exact decode_immediate 0xC (fun _ _ _ => rfl) x b
  | draw x y n => exact decode_register2 0xD x y n
  | skipIfPressed x => exact decode_register1 0xE x 0x9E
  | skipUnlessPressed x => exact decode_register1 0xE x 0xA1
  | readDelay x => exact decode_register1 0xF x 0x07
  | awaitKey x => exact decode_register1 0xF x 0x0A
  | setDelay x => exact decode_register1 0xF x 0x15
  | setSound x => exact decode_register1 0xF x 0x18
  | addIndex x => exact decode_register1 0xF x 0x1E
  | glyph x => exact decode_register1 0xF x 0x29
  | storeDecimal x => exact decode_register1 0xF x 0x33
  | store x => exact decode_register1 0xF x 0x55
  | load x => exact decode_register1 0xF x 0x65
  | unknown w => exact absurd rfl (hi w)

/-! ## words that mean nothing -/

theorem decode_eq_unknown_iff (o : Int) :
    decode o = unknown (.ofNat (o % 65536).toNat) ↔
      ∀ i : Instruction, i.Known → ∀ spare, (encode i spare : Int) ≠ o % 65536 := by
  constructor
  · intro hunknown i hi spare hword
    have hdecode : decode o = i := by rw [← decode_emod, ← hword, decode_encode hi]
    exact hi _ (hdecode ▸ hunknown)
  · intro hnone
    by_cases hi : (decode o).Known
    · exact absurd (encode_decode o) (hnone _ hi _)
    · obtain ⟨w, hw⟩ : ∃ w, decode o = unknown w := by simpa [Known] using hi
      have hword : (w.toNat : Int) = o % 65536 := by
        have hword := encode_decode o
        rwa [hw] at hword
      rw [hw, ← hword, Int.toNat_natCast, UInt16.ofNat_toNat]

end Instruction

end ChipEight
