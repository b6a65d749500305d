import Mathlib.Data.Nat.Bitwise
import ChipEight.Machine.SaveState

/-!
# Numbers in bytes

* `Spells bytes o l`       from offset `o` on, the bytes are those of `l`;
* `spells_append`          one list after the other;
* `spells_flatMap`         entries of one width, each at its own offset;
* `bigEndian_numberAt`     what was read is written again;
* `numberAt_of_spells`     a number with a place in `w` bytes is read as it was written;
* `testBit_bigEndian`      which bit of which byte is which bit of the number.
-/

namespace ChipEight

namespace State

/-! ## bytes at an offset -/

def Spells (bytes : Array UInt8) (o : Nat) (l : List UInt8) : Prop :=
  ∀ (j : Nat) (h : j < l.length), byteAt bytes (o + j) = l[j]

theorem spells_nil (bytes : Array UInt8) (o : Nat) : Spells bytes o [] := nofun

theorem spells_cons {bytes : Array UInt8} {o : Nat} {b : UInt8} {l : List UInt8} :
    Spells bytes o (b :: l) ↔ byteAt bytes o = b ∧ Spells bytes (o + 1) l := by
  constructor
  · intro h
    refine ⟨h 0 (by simp), fun j hj => ?_⟩
    rw [Nat.add_assoc, Nat.add_comm 1]
    exact h (j + 1) (by simpa using hj)
  · rintro ⟨hb, hl⟩ j hj
    cases j with
    | zero => exact hb
    | succ j =>
      have hnext := hl j (by simpa using hj)
      rwa [Nat.add_assoc, Nat.add_comm 1] at hnext

theorem spells_append {bytes : Array UInt8} {o : Nat} {l m : List UInt8} :
    Spells bytes o (l ++ m) ↔ Spells bytes o l ∧ Spells bytes (o + l.length) m := by
  induction l generalizing o with
  | nil => simp [spells_nil]
  | cons b l ih =>
    rw [List.cons_append, spells_cons, spells_cons, ih, and_assoc, List.length_cons,
      Nat.add_comm l.length, Nat.add_assoc]

theorem spells_toArray (l : List UInt8) : Spells l.toArray 0 l := by
  intro j hj
  simp [byteAt, hj]

theorem Spells.toList {bytes : Array UInt8} {l : List UInt8} (h : Spells bytes 0 l)
    (hsize : bytes.size = l.length) : bytes.toList = l := by
  refine List.ext_getElem (by simpa using hsize) fun j hj hl => ?_
  have hbyte := h j hl
  rw [Nat.zero_add, byteAt, Array.getElem?_eq_getElem (by simpa using hj)] at hbyte
  exact hbyte

theorem spells_flatMap {α : Type} {f : α → List UInt8} {w : Nat} (hw : ∀ x, (f x).length = w)
    {bytes : Array UInt8} {o : Nat} {l : List α} :
    Spells bytes o (l.flatMap f) ↔
      ∀ (k : Nat) (h : k < l.length), Spells bytes (o + w * k) (f l[k]) := by
  induction l generalizing o with
  | nil => simp [spells_nil]
  | cons x l ih =>
    rw [List.flatMap_cons, spells_append, ih, hw x]
    constructor
    · rintro ⟨hx, hl⟩ k hk
      cases k with
      | zero => exact hx
      | succ k =>
        have hnext := hl k (by simpa using hk)
        rwa [Nat.add_assoc, Nat.add_comm w, ← Nat.mul_succ] at hnext
    · intro h
      refine ⟨h 0 (by simp), fun k hk => ?_⟩
      rw [Nat.add_assoc, Nat.add_comm w, ← Nat.mul_succ]
      exact h (k + 1) (by simpa using hk)

theorem length_flatMap_const {α : Type} {f : α → List UInt8} {w : Nat}
    (hw : ∀ x, (f x).length = w) (l : List α) : (l.flatMap f).length = w * l.length := by
  induction l with
  | nil => rfl
  | cons x l ih =>
    rw [List.flatMap_cons, List.length_append, hw, ih, List.length_cons, Nat.mul_succ,
      Nat.add_comm]

/-! ## numbers, the highest byte first -/

theorem length_bigEndian (w n : Nat) : (bigEndian w n).length = w := by simp [bigEndian]

theorem getElem_bigEndian {w : Nat} (n : Nat) {j : Nat} (h : j < (bigEndian w n).length) :
    (bigEndian w n)[j] = .ofNat (n / 256 ^ (w - 1 - j)) := by
  simp [bigEndian]

theorem numberAt_zero (bytes : Array UInt8) (k : Nat) : numberAt bytes 0 k = 0 := rfl

theorem numberAt_succ (bytes : Array UInt8) (w k : Nat) :
    numberAt bytes (w + 1) k = numberAt bytes w k * 256 + (byteAt bytes (k + w)).toNat := by
  rw [numberAt, List.range_succ, List.foldl_append]
  rfl

theorem numberAt_lt (bytes : Array UInt8) (w k : Nat) : numberAt bytes w k < 256 ^ w := by
  induction w with
  | zero => simp [numberAt_zero]
  | succ w ih =>
    have hb := (byteAt bytes (k + w)).toNat_lt
    rw [numberAt_succ, Nat.pow_succ]
    omega

/-- the bytes that a number is read from are its digits -/
theorem numberAt_digit (bytes : Array UInt8) {w j : Nat} (k : Nat) (h : j < w) :
    numberAt bytes w k / 256 ^ (w - 1 - j) % 256 = (byteAt bytes (k + j)).toNat := by
  induction w with
  | zero => omega
  | succ w ih =>
    have hb := (byteAt bytes (k + w)).toNat_lt
    rw [numberAt_succ]
    by_cases hj : j < w
    · have hexp : w + 1 - 1 - j = w - 1 - j + 1 := by omega
      have hshift : (numberAt bytes w k * 256 + (byteAt bytes (k + w)).toNat) / 256 =
          numberAt bytes w k := by omega
      rw [hexp, Nat.pow_succ', ← Nat.div_div_eq_div_mul, hshift, ih hj]
    · obtain rfl : j = w := by omega
      rw [Nat.add_sub_cancel, Nat.sub_self, Nat.pow_zero, Nat.div_one]
      omega

theorem spells_bigEndian {bytes : Array UInt8} {w n k : Nat} :
    Spells bytes k (bigEndian w n) ↔
      ∀ j < w, (byteAt bytes (k + j)).toNat = n / 256 ^ (w - 1 - j) % 256 := by
  constructor
  · intro h j hj
    rw [h j (by rwa [length_bigEndian]), getElem_bigEndian, UInt8.toNat_ofNat']
  · intro h j hj
    rw [getElem_bigEndian, ← UInt8.toNat_inj, UInt8.toNat_ofNat']
    exact h j (by rwa [length_bigEndian] at hj)

theorem bigEndian_numberAt (bytes : Array UInt8) (w k : Nat) :
    Spells bytes k (bigEndian w (numberAt bytes w k)) := by
  rw [spells_bigEndian]
  intro j hj
  rw [numberAt_digit bytes k hj]

theorem numberAt_of_spells {bytes : Array UInt8} {w n k : Nat} (hn : n < 256 ^ w)
    (h : Spells bytes k (bigEndian w n)) : numberAt bytes w k = n := by
  rw [spells_bigEndian] at h
  have hread : ∀ m ≤ w, numberAt bytes m k = n / 256 ^ (w - m) := by
    intro m hm
    induction m with
    | zero => rw [numberAt_zero, Nat.sub_zero, Nat.div_eq_of_lt hn]
    | succ m ih =>
      have hexp : w - m = w - (m + 1) + 1 := by omega
      have hdigit := h m (by omega)
      rw [show w - 1 - m = w - (m + 1) by omega] at hdigit
      rw [numberAt_succ, ih (by omega), hdigit, hexp, Nat.pow_succ, ← Nat.div_div_eq_div_mul]
      omega
  rw [hread w (Nat.le_refl w), Nat.sub_self, Nat.pow_zero, Nat.div_one]

theorem testBit_bigEndian {bytes : Array UInt8} {w n k j t : Nat}
    (h : Spells bytes k (bigEndian w n)) (hj : j < w) (ht : t < 8) :
    (byteAt bytes (k + j)).toNat.testBit t = n.testBit (8 * (w - 1 - j) + t) := by
  have hpow : 256 ^ (w - 1 - j) = 2 ^ (8 * (w - 1 - j)) := by
    rw [Nat.pow_mul]
  rw [spells_bigEndian.mp h j hj, hpow, show 256 = 2 ^ 8 from rfl, Nat.testBit_mod_two_pow,
    Nat.testBit_div_two_pow, Nat.add_comm t]
  simp [ht]

end State

end ChipEight
