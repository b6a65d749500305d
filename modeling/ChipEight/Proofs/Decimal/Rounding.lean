import Mathlib

/-!
# Rounding to doubles

What the rounding of a mantissa and an exponent makes of them, and what is left of it in a double.

* `HasSign s u`            `u` is a real number with the sign `s`, zero included;
* `repack u`               `u` put into a double and taken out again;
* `repack_finite`, `repack_infinite`   this keeps it finite just if the exponent fits;
* `lastExponent m e`       the exponent of the last place of a double next to `m · 2^e`;
* `roundWithAccuracy_eq`   rounding gives the nearest multiple of that place, up or down;
* `hasSign_round`, `infinite_round`   when the double is finite, and when it is not.
-/

namespace ChipEight.Decimal

open Float.Model Float.Model.UnpackedFloat

variable {s : Sign} {m : Nat} {e : Int}

def HasSign (s : Sign) (u : UnpackedFloat) : Prop := u = .zero s ∨ ∃ m e h, u = .finite s m e h

def repack (u : UnpackedFloat) : UnpackedFloat :=
  UnpackedFloat.unpack Format.binary64 (UnpackedFloat.pack Format.binary64 u)

/-! ## packing -/

theorem unpackSign_packComponents {spec : Format} (s : Sign) (x : BitVec spec.exponentBits)
    (v : BitVec spec.mantissaBitsWithoutImplicit) :
    unpackSign (packComponents spec s x v) = s.toBitVec := by
  apply BitVec.eq_of_getLsbD_eq
  intro i hi
  obtain rfl : i = 0 := by omega
  simp [unpackSign, packComponents, BitVec.getLsbD_append, BitVec.getElem_append]

theorem ofBitVec_toBitVec (s : Sign) : Sign.ofBitVec s.toBitVec = s := by cases s <;> rfl

theorem repack_zero (s : Sign) : repack (.zero s) = .zero s := by cases s <;> rfl

theorem repack_infinity (s : Sign) : repack (.infinity s) = .infinity s := by cases s <;> rfl

theorem unpack_packComponents (s : Sign) (x : BitVec 11) (v : BitVec 52) (hx : x ≠ -1#11) :
    HasSign s (UnpackedFloat.unpack Format.binary64 (packComponents Format.binary64 s x v)) := by
  unfold UnpackedFloat.unpack
  simp only [unpackMantissa_packComponents, unpackExponent_packComponents,
    unpackSign_packComponents, ofBitVec_toBitVec]
  rw [if_neg hx]
  split
  · split
    · exact .inl rfl
    · exact .inr ⟨_, _, _, rfl⟩
  · exact .inr ⟨_, _, _, rfl⟩

def exponentField (e : Int) : Nat := (e + 1075).toNat

theorem pack_eq (s : Sign) (e : Int) (h : 0 < m) :
    UnpackedFloat.pack Format.binary64 (.finite s m e h) =
      if 2 ^ 11 ≤ exponentField e + 1 then packedInfinity Format.binary64 s
      else if m.log2 + 1 = 53 then
        packComponents Format.binary64 s (BitVec.ofNat 11 (exponentField e)) (BitVec.ofNat 52 m)
      else packComponents Format.binary64 s 0#11 (BitVec.ofNat 52 m) := by
  have hfield : (e + (Format.binary64.exponentBias : Int) + 52).toNat = exponentField e := by
    rw [exponentField, add_assoc]
    rfl
  rw [← hfield]
  rfl

theorem repack_finite (h : 0 < m) (he : e ≤ 971) : HasSign s (repack (.finite s m e h)) := by
  have hfield : exponentField e ≤ 2046 := by
    unfold exponentField
    omega
  rw [repack, pack_eq, if_neg (by omega)]
  split
  · refine unpack_packComponents s _ _ fun hx => ?_
    have hbits := congrArg BitVec.toNat hx
    rw [BitVec.toNat_ofNat, Nat.mod_eq_of_lt (by omega)] at hbits
    have hones : (-1#11).toNat = 2047 := rfl
    omega
  · exact unpack_packComponents s _ _ (by decide)

theorem repack_infinite (h : 0 < m) (he : 972 ≤ e) :
    repack (.finite s m e h) = .infinity s := by
  have hfield : 2047 ≤ exponentField e := by
    unfold exponentField
    omega
  rw [repack, pack_eq, if_pos (by omega)]
  exact repack_infinity s

/-! ## rounding -/

def lastExponent (m : Nat) (e : Int) : Int := max e (max (m.log2 + e - 52) (-1074))

theorem mantissa_shiftRight (em : ExtendedMantissa) (n : Nat) :
    (em >>> n).mantissa = em.mantissa / 2 ^ n := by
  induction n with
  | zero => exact (Nat.div_one _).symm
  | succ n ih =>
    show (em >>> n).mantissa / 2 = _
    rw [ih, Nat.div_div_eq_div_mul, Nat.pow_succ]

theorem mantissa_ofMantissaAndAccuracy (m : Nat) (acc : Accuracy) :
    (ExtendedMantissa.ofMantissaAndAccuracy m acc).mantissa = m := by
  unfold ExtendedMantissa.ofMantissaAndAccuracy
  split <;> rfl

theorem le_roundedMantissa (em : ExtendedMantissa) :
    em.mantissa ≤ em.roundedMantissa ∧ em.roundedMantissa ≤ em.mantissa + 1 := by
  unfold ExtendedMantissa.roundedMantissa Accuracy.roundToNearestEven
  split <;> omega

theorem targetExponent_eq (m : Nat) (e : Int) :
    Format.binary64.targetExponent (totalExponent m e) = max (m.log2 + e - 52) (-1074) := by
  have hmin : Format.binary64.minExponent = -1074 := rfl
  have hbits : Format.binary64.mantissaBits = 53 := rfl
  rw [Format.targetExponent, totalExponent, hmin, hbits]
  omega

theorem shiftToTargetExponent_eq (m : Nat) (e : Int) (acc : Accuracy) :
    shiftToTargetExponent Format.binary64 m e acc =
      (ExtendedMantissa.ofMantissaAndAccuracy m acc >>> (lastExponent m e - e).toNat,
        lastExponent m e) := by
  have hshift : (max (m.log2 + e - 52) (-1074) - e).toNat = (lastExponent m e - e).toNat := by
    unfold lastExponent
    omega
  have hlast : e + ((lastExponent m e - e).toNat : Int) = lastExponent m e := by
    unfold lastExponent
    omega
  rw [shiftToTargetExponent, targetExponent_eq, shiftToExponent, hshift, hlast]

/-- a rounded mantissa at its place; with all places carried it moves up by one -/
def settle (s : Sign) (r : Nat) (e : Int) : UnpackedFloat :=
  if h : r = 0 then .zero s
  else if r < 2 ^ 53 then .finite s r e (Nat.pos_of_ne_zero h)
  else .finite s (2 ^ 52) (e + 1) (by decide)

theorem log2_le {n : Nat} (hm : m < 2 ^ (n + 1)) : m.log2 ≤ n := by
  by_cases h0 : m = 0
  · rw [h0, Nat.log2_zero]
    exact Nat.zero_le n
  · exact Nat.le_of_lt_succ ((Nat.log2_lt h0).2 hm)

theorem lastExponent_of_lt (hm : m < 2 ^ 53) (he : -1074 ≤ e) : lastExponent m e = e := by
  have hlog : m.log2 ≤ 52 := log2_le hm
  unfold lastExponent
  omega

theorem cut_lt (m : Nat) (e : Int) : m / 2 ^ (lastExponent m e - e).toNat < 2 ^ 53 := by
  have hlog : m.log2 + 1 ≤ 53 + (lastExponent m e - e).toNat := by
    unfold lastExponent
    omega
  rw [Nat.div_lt_iff_lt_mul (Nat.two_pow_pos _), ← Nat.pow_add]
  exact lt_of_lt_of_le Nat.lt_log2_self (Nat.pow_le_pow_right (by decide) hlog)

theorem le_lastExponent (m : Nat) (e : Int) : -1074 ≤ lastExponent m e := by
  unfold lastExponent
  omega

/-- a number with at most one bit too many, moved to its place once more -/
theorem settle_eq (s : Sign) {r : Nat} (hr : r ≤ 2 ^ 53) {e : Int} (he : -1074 ≤ e) :
    (if h : r / 2 ^ (lastExponent r e - e).toNat = 0 then .zero s
      else .finite s (r / 2 ^ (lastExponent r e - e).toNat) (lastExponent r e)
        (Nat.pos_of_ne_zero h)) = settle s r e := by
  rcases Nat.lt_or_eq_of_le hr with hlt | rfl
  · rw [settle]
    simp only [lastExponent_of_lt hlt he, sub_self, Int.toNat_zero, Nat.pow_zero, Nat.div_one,
      if_pos hlt]
  · have hlast : lastExponent (2 ^ 53) e = e + 1 := by
      rw [lastExponent, Nat.log2_two_pow]
      omega
    have hone : (e + 1 - e).toNat = 1 := by omega
    simp only [hlast, hone]
    rfl

theorem roundWithAccuracy_eq (s : Sign) (m : Nat) (e : Int) (acc : Accuracy) :
    ∃ r, m / 2 ^ (lastExponent m e - e).toNat ≤ r ∧
      r ≤ m / 2 ^ (lastExponent m e - e).toNat + 1 ∧
      roundWithAccuracy Format.binary64 s m e acc = settle s r (lastExponent m e) := by
  have hcut := le_roundedMantissa
    (ExtendedMantissa.ofMantissaAndAccuracy m acc >>> (lastExponent m e - e).toNat)
  rw [mantissa_shiftRight, mantissa_ofMantissaAndAccuracy] at hcut
  refine ⟨_, hcut.1, hcut.2, ?_⟩
  have hr := le_trans hcut.2 (cut_lt m e)
  rw [← settle_eq s hr (le_lastExponent m e), roundWithAccuracy]
  simp only [shiftToTargetExponent_eq, mantissa_shiftRight, mantissa_ofMantissaAndAccuracy]

/-! ## finite or not -/

theorem hasSign_settle {r : Nat} (h : e ≤ 970 ∨ (e = 971 ∧ r < 2 ^ 53)) :
    HasSign s (repack (settle s r e)) := by
  unfold settle
  split
  · rw [repack_zero]
    exact .inl rfl
  · split
    · exact repack_finite _ (by omega)
    · exact repack_finite _ (by omega)

/-- what lies below the last double by a place or more stays finite -/
theorem hasSign_round (s : Sign) (acc : Accuracy) (he : e ≤ 971)
    (hm : m + 1 ≤ (2 ^ 53 - 1) * 2 ^ (971 - e).toNat) :
    HasSign s (repack (roundWithAccuracy Format.binary64 s m e acc)) := by
  obtain ⟨r, -, hr, hround⟩ := roundWithAccuracy_eq s m e acc
  have hlog : m.log2 ≤ 52 + (971 - e).toNat := by
    refine log2_le (lt_of_lt_of_le hm ?_)
    rw [Nat.add_right_comm, Nat.pow_add]
    exact Nat.mul_le_mul_right _ (by decide)
  have hlast : lastExponent m e ≤ 971 := by
    unfold lastExponent
    omega
  rw [hround]
  refine hasSign_settle ?_
  rcases hlast.lt_or_eq with hlt | heq
  · exact .inl (by omega)
  · rw [heq] at hr
    have hcut : m / 2 ^ (971 - e).toNat < 2 ^ 53 - 1 :=
      (Nat.div_lt_iff_lt_mul (Nat.two_pow_pos _)).2 hm
    exact .inr ⟨heq, by omega⟩

theorem hasSign_round_of_lt (s : Sign) (acc : Accuracy) (he : e ≤ 971)
    (hm : m < 2 ^ (52 + (971 - e).toNat)) :
    HasSign s (repack (roundWithAccuracy Format.binary64 s m e acc)) := by
  refine hasSign_round s acc he (le_trans hm ?_)
  rw [Nat.pow_add]
  exact Nat.mul_le_mul_right _ (by decide)

/-- what has all bits of a double and lies beyond the last one does not -/
theorem infinite_round (s : Sign) (acc : Accuracy) (hm : 2 ^ 52 ≤ m)
    (he : 972 ≤ m.log2 + e - 52) :
    repack (roundWithAccuracy Format.binary64 s m e acc) = .infinity s := by
  obtain ⟨r, hr, -, hround⟩ := roundWithAccuracy_eq s m e acc
  have h0 : m ≠ 0 := by omega
  have hlog : 52 ≤ m.log2 := (Nat.le_log2 h0).2 hm
  have hlast : lastExponent m e = m.log2 + e - 52 := by
    unfold lastExponent
    omega
  have hcut : 2 ^ 52 ≤ m / 2 ^ (lastExponent m e - e).toNat := by
    have hbits : 52 + (lastExponent m e - e).toNat = m.log2 := by omega
    rw [Nat.le_div_iff_mul_le (Nat.two_pow_pos _), ← Nat.pow_add, hbits]
    exact Nat.log2_self_le h0
  rw [hround, settle, dif_neg (by omega)]
  split
  · exact repack_infinite _ (by omega)
  · exact repack_infinite _ (by omega)

end ChipEight.Decimal
