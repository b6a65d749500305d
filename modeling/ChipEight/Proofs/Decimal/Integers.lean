import ChipEight.Proofs.Decimal.Quotients

/-!
# Integers as doubles

* `roundDiv_le_iff`      which quotients are rounded to an odd number or below;
* `nearestBits_one`      the bits of the double next to an integer;
* `ofInt?_eq_some_iff`   the integers that a finite double is next to;
* `contents_ofInt?`      what that double holds: a normal number, if the integer is above zero.
-/

namespace ChipEight.Decimal

open Float.Model Float.Model.UnpackedFloat

/-- a quotient that lies half way above an odd number is rounded up -/
theorem roundDiv_le_iff {num den k : Nat} (hden : 0 < den) (hk : k % 2 = 1) :
    roundDiv num den ≤ k ↔ 2 * num < (2 * k + 1) * den := by
  have hsplit : den * (num / den) + num % den = num := Nat.div_add_mod num den
  have hrest : num % den < den := Nat.mod_lt _ hden
  have hbound : (2 * k + 1) * den = 2 * (den * k) + den := by ring
  rcases Nat.lt_trichotomy (num / den) k with hlt | heq | hgt
  · have hround := roundDiv_le_succ num den
    have hnum : den * (num / den) + den ≤ den * k := Nat.mul_le_mul_left den hlt
    omega
  · rw [heq] at hsplit
    rw [roundDiv, heq]
    split
    · omega
    · split <;> omega
  · have hround := roundDiv_le num den
    have hnum : den * k + den ≤ den * (num / den) := Nat.mul_le_mul_left den hgt
    omega

variable {n : Nat}

theorem two_eq (k : Nat) : two k = 2 ^ k := rfl

theorem two_positive (k : Nat) : 0 < two k := Nat.two_pow_pos k

theorem two_add (i k : Nat) : two (i + k) = 2 ^ i * two k := Nat.pow_add 2 i k

theorem log2_lt_iff (hn : n ≠ 0) (k : Nat) : n.log2 < k ↔ n < two k := Nat.log2_lt hn

theorem mul_two_pow_bounds (hn : n ≠ 0) {i j k : Nat} (h : n.log2 + i = k + j) :
    2 ^ k * 2 ^ j ≤ n * 2 ^ i ∧ n * 2 ^ i < 2 ^ (k + 1) * 2 ^ j := by
  constructor
  · rw [← Nat.pow_add, ← h, Nat.pow_add]
    exact Nat.mul_le_mul_right _ (Nat.log2_self_le hn)
  · rw [← Nat.pow_add, Nat.add_right_comm, ← h, Nat.add_right_comm, Nat.pow_add]
    exact Nat.mul_lt_mul_of_pos_right Nat.lt_log2_self (Nat.two_pow_pos _)

theorem lastPlace_one (hn : n ≠ 0) : lastPlace n 1 = n.log2 - 52 := by
  have hexp : max (-1074) ((n.log2 : Int) - (1 : Nat).log2 - 53) = n.log2 - 53 := by
    have hone : (1 : Nat).log2 = 0 := by decide
    rw [hone]
    omega
  have hcut : ¬ n * two (-((n.log2 : Int) - 53)).toNat / (1 * two ((n.log2 : Int) - 53).toNat) <
      two 53 := by
    rw [Nat.one_mul, not_lt, two_eq, two_eq, two_eq, Nat.le_div_iff_mul_le (Nat.two_pow_pos _)]
    exact (mul_two_pow_bounds hn (by omega)).1
  rw [lastPlace, hexp, if_neg hcut]
  omega

/-- the mantissa of the double next to an integer -/
def roundedMantissa (n : Nat) : Nat :=
  roundDiv (n * two (-((n.log2 : Int) - 52)).toNat) (two ((n.log2 : Int) - 52).toNat)

theorem roundedMantissa_bounds (hn : n ≠ 0) :
    2 ^ 52 ≤ roundedMantissa n ∧ roundedMantissa n ≤ 2 ^ 53 := by
  obtain ⟨hlow, hhigh⟩ := mul_two_pow_bounds (i := (-((n.log2 : Int) - 52)).toNat)
    (j := ((n.log2 : Int) - 52).toNat) (k := 52) hn (by omega)
  have hfloor := (Nat.le_div_iff_mul_le (Nat.two_pow_pos _)).2 hlow
  have hceil := (Nat.div_lt_iff_lt_mul (Nat.two_pow_pos _)).2 hhigh
  exact ⟨le_trans hfloor (roundDiv_le _ _), le_trans (roundDiv_le_succ _ _) hceil⟩

theorem nearestBits_one (hn : n ≠ 0) :
    nearestBits n 1 = min infinityBits ((n.log2 + 1022) * 2 ^ 52 + roundedMantissa n) := by
  have hfield : ((n.log2 : Int) - 52 + 1074).toNat = n.log2 + 1022 := by omega
  rw [nearestBits, if_neg hn]
  dsimp only
  rw [lastPlace_one hn, hfield, Nat.one_mul]
  rfl

/-- the integers that a finite double is next to -/
theorem nearestBits_lt_iff : nearestBits n 1 < infinityBits ↔ n < two 1024 - two 970 := by
  have hinfinity : infinityBits = 2047 * 2 ^ 52 := rfl
  have hplace : two 971 = 2 ^ 1 * two 970 := two_add 1 970
  have hhalf : two 1023 = 2 ^ 53 * two 970 := two_add 53 970
  have htop : two 1024 = 2 ^ 54 * two 970 := two_add 54 970
  have hpos : 0 < two 970 := two_positive 970
  by_cases hn : n = 0
  · subst hn
    exact iff_of_true (by decide) (by omega)
  obtain ⟨hlow, hhigh⟩ := roundedMantissa_bounds hn
  rw [nearestBits_one hn, hinfinity]
  rcases Nat.lt_trichotomy n.log2 1023 with hsmall | heq | hlarge
  · have hlt : n < two 1023 := (log2_lt_iff hn 1023).1 hsmall
    exact iff_of_true (by omega) (by omega)
  · have hround : roundedMantissa n = roundDiv n (two 971) := by
      have hfraction : (-(((1023 : Nat) : Int) - 52)).toNat = 0 := by decide
      have hexp : (((1023 : Nat) : Int) - 52).toNat = 971 := by decide
      rw [roundedMantissa, heq, hfraction, hexp, two_eq 0, Nat.pow_zero, Nat.mul_one]
    have hle : roundDiv n (two 971) ≤ 2 ^ 53 - 1 ↔ 2 * n < (2 * (2 ^ 53 - 1) + 1) * two 971 :=
      roundDiv_le_iff (by omega) (by decide)
    rw [← hround] at hle
    rw [heq]
    omega
  · have hge : ¬n < two 1024 := mt (log2_lt_iff hn 1024).2 (by omega)
    exact iff_of_false (by omega) (by omega)

theorem ofInt?_eq_some_iff {n : Int} {x : Float} :
    ofInt? n = some x ↔
      n.natAbs < two 1024 - two 970 ∧ x = nearest (n < 0) n.natAbs 1 := by
  rw [ofInt?, ← nearestBits_lt_iff]
  split
  · rename_i hlt
    rw [Option.some.injEq, and_iff_right hlt, eq_comm]
  · rename_i hge
    exact ⟨nofun, fun h => absurd h.1 hge⟩

/-! ## what the double holds -/

theorem repack_normal {s : Sign} {m : Nat} {e : Int} (h : 0 < m) (hm : Canonical m e)
    (hlow : 2 ^ 52 ≤ m) : repack (.finite s m e h) = .finite s m e h := by
  obtain ⟨hlt, hleast, hgreatest, -⟩ := hm
  have hlog : m.log2 + 1 = 53 := by
    have hle := log2_le (n := 52) hlt
    have hge := (Nat.le_log2 h.ne').2 hlow
    omega
  have hfield : (exponentField e : Int) = e + 1075 := by
    unfold exponentField
    omega
  have hbits : (BitVec.ofNat 11 (exponentField e)).toNat = exponentField e := by
    rw [BitVec.toNat_ofNat, Nat.mod_eq_of_lt (by omega)]
  have hones : BitVec.ofNat 11 (exponentField e) ≠ -1#11 := by
    intro heq
    have hnat : exponentField e = 2047 := hbits.symm.trans (congrArg BitVec.toNat heq)
    omega
  have hzero : BitVec.ofNat 11 (exponentField e) ≠ 0#11 := by
    intro heq
    have hnat : exponentField e = 0 := hbits.symm.trans (congrArg BitVec.toNat heq)
    omega
  have hmantissa : (1#1 ++ BitVec.ofNat 52 m).toNat = m := by
    rw [toNat_implicit, BitVec.toNat_ofNat]
    omega
  have hexponent : (exponentField e : Int) - (Format.binary64.exponentBias + (52 : Nat)) = e := by
    have hbias : (Format.binary64.exponentBias : Int) = 1023 := rfl
    omega
  rw [repack, pack_eq, if_neg (by omega), if_pos hlog]
  unfold UnpackedFloat.unpack
  simp only [unpackMantissa_packComponents, unpackExponent_packComponents,
    unpackSign_packComponents, ofBitVec_toBitVec, hones, hzero, if_false, hbits, hmantissa,
    hexponent]

section
variable {b : Nat}

theorem toNat_unpackExponent (hb : b < infinityBits) :
    (@unpackExponent Format.binary64 (BitVec.ofNat 64 b)).toNat = b / 2 ^ 52 := by
  have hinfinity : infinityBits = 2047 * 2 ^ 52 := rfl
  rw [unpackExponent, BitVec.toNat_cast, BitVec.extractLsb_toNat]
  show (b % 2 ^ 64) >>> 52 % 2 ^ 11 = b / 2 ^ 52
  rw [Nat.shiftRight_eq_div_pow]
  omega

theorem unpackSign_positive (hb : b < infinityBits) :
    Sign.ofBitVec (@unpackSign Format.binary64 (BitVec.ofNat 64 b)) = .positive := by
  have hinfinity : infinityBits = 2047 * 2 ^ 52 := rfl
  have hzero : @unpackSign Format.binary64 (BitVec.ofNat 64 b) = 0#1 := by
    apply BitVec.eq_of_toNat_eq
    rw [unpackSign, BitVec.toNat_cast, BitVec.extractLsb_toNat]
    show (b % 2 ^ 64) >>> 63 % 2 ^ 1 = 0
    rw [Nat.shiftRight_eq_div_pow]
    omega
  rw [hzero]
  rfl

theorem unpack_normal (hb : b < infinityBits) (hnormal : 2 ^ 52 ≤ b) :
    ∃ m e h, UnpackedFloat.unpack Format.binary64 (BitVec.ofNat 64 b) =
      .finite .positive m e h ∧ e = ((b / 2 ^ 52 : Nat) : Int) - 1075 ∧ 2 ^ 52 ≤ m ∧ m < 2 ^ 53 := by
  have hinfinity : infinityBits = 2047 * 2 ^ 52 := rfl
  have hbias : (Format.binary64.exponentBias : Int) = 1023 := rfl
  have hfield := toNat_unpackExponent hb
  unfold UnpackedFloat.unpack
  dsimp only
  rw [unpackSign_positive hb, hfield, hbias]
  split
  · rename_i hones
    rw [hones] at hfield
    change 2047 = b / 2 ^ 52 at hfield
    omega
  · split
    · rename_i hzero
      rw [hzero] at hfield
      change 0 = b / 2 ^ 52 at hfield
      omega
    · have hlt := (@unpackMantissa Format.binary64 (BitVec.ofNat 64 b)).isLt
      have hmantissa := toNat_implicit (@unpackMantissa Format.binary64 (BitVec.ofNat 64 b))
      exact ⟨_, _, by omega, rfl, by omega, by omega, by omega⟩

theorem contents_ofBits_normal (hb : b < infinityBits) (hnormal : 2 ^ 53 ≤ b) :
    ∃ m e h, contents (Float.ofBits (.ofNat b)) = .finite .positive m e h ∧ -1074 < e := by
  obtain ⟨m, e, h, hunpack, he, hlow, hhigh⟩ := unpack_normal hb (by omega)
  have hinfinity : infinityBits = 2047 * 2 ^ 52 := rfl
  have hcanonical : Canonical m e := ⟨hhigh, by omega, by omega, .inl hlow⟩
  refine ⟨m, e, h, ?_, by omega⟩
  rw [← repack_normal h hcanonical hlow, ← hunpack]
  rfl

end

theorem contents_ofInt? {n : Int} {x : Float} (h : ofInt? n = some x) (hn : 0 < n) :
    ∃ m e h, contents x = .finite .positive m e h ∧ -1074 < e := by
  obtain ⟨hlt, rfl⟩ := ofInt?_eq_some_iff.1 h
  have hne : n.natAbs ≠ 0 := by omega
  have hbits := nearestBits_lt_iff.2 hlt
  obtain ⟨hlow, -⟩ := roundedMantissa_bounds hne
  have hnormal : 2 ^ 53 ≤ nearestBits n.natAbs 1 := by
    have hinfinity : infinityBits = 2047 * 2 ^ 52 := rfl
    rw [nearestBits_one hne]
    omega
  rw [nearest, decide_eq_false (by omega)]
  exact contents_ofBits_normal hbits hnormal

theorem contents_ofInt?_zero {x : Float} (h : ofInt? 0 = some x) : contents x = .zero .positive := by
  cases h
  rfl

end ChipEight.Decimal
