import ChipEight.Decimal.Binary
import ChipEight.Proofs.Decimal.Rounding

/-!
# Quotients of doubles

* `contents x`              what a double holds, and `Canonical` what its two numbers keep;
* `isFinite_and_le_iff`     the doubles that are finite and not below zero;
* `quotientExponent`        the exponent that a quotient is computed with before it is rounded;
* `hasSign_div`             a quotient by a mantissa with all its bits is finite if it is not large;
* `div_thousand_iff`        a thousandth is finite if the double is;
* `one_div_iff`             an inverse is finite if the double lies above `least`.
-/

namespace ChipEight.Decimal

open Float.Model Float.Model.UnpackedFloat

variable {s : Sign} {m m₁ m₂ : Nat} {e e₁ e₂ : Int} {x y : Float}

def contents (x : Float) : UnpackedFloat := x.toModel.unpack

theorem contents_div (x y : Float) :
    contents (x / y) = repack (UnpackedFloat.div Format.binary64 (contents x) (contents y)) := rfl

theorem lt_iff : x < y ↔ (contents x).lt (contents y) = true := by
  show decide _ = true ↔ _
  rw [decide_eq_true_iff]
  rfl

theorem le_iff : x ≤ y ↔ (contents x).le (contents y) = true := by
  show decide _ = true ↔ _
  rw [decide_eq_true_iff]
  rfl

theorem contents_zero : contents 0 = .zero .positive := rfl

theorem contents_one : contents 1.0 = .finite .positive (2 ^ 52) (-52) (by decide) := rfl

theorem contents_thousand :
    contents 1000.0 = .finite .positive (1000 * 2 ^ 43) (-43) (by decide) := rfl

structure Canonical (m : Nat) (e : Int) : Prop where
  mantissa_lt : m < 2 ^ 53
  least_le : -1074 ≤ e
  le_greatest : e ≤ 971
  normal : 2 ^ 52 ≤ m ∨ e = -1074

theorem toNat_implicit (v : BitVec 52) : (1#1 ++ v).toNat = 2 ^ 52 + v.toNat := by
  rw [BitVec.toNat_append, ← Nat.shiftLeft_add_eq_or_of_lt v.isLt]
  rfl

theorem canonical_contents {h : 0 < m} (hx : contents x = .finite s m e h) : Canonical m e := by
  have hbias : (Format.binary64.exponentBias : Int) = 1023 := rfl
  unfold contents Float.Model.unpack UnpackedFloat.unpack at hx
  dsimp only at hx
  rw [hbias] at hx
  split at hx
  · split at hx <;> cases hx
  · rename_i hones
    split at hx
    · split at hx
      · cases hx
      · rename_i hzero hv
        injection hx with hs hm he
        rw [hzero] at he
        have hlt := (@unpackMantissa Format.binary64 x.toModel.toBits.toBitVec).isLt
        have hleast : e = -1074 := he.symm
        exact ⟨by omega, by omega, by omega, .inr hleast⟩
    · rename_i hzero
      injection hx with hs hm he
      rw [toNat_implicit] at hm
      have hlt := (@unpackMantissa Format.binary64 x.toModel.toBits.toBitVec).isLt
      have hfield := (@unpackExponent Format.binary64 x.toModel.toBits.toBitVec).isLt
      have hlast := mt BitVec.eq_of_toNat_eq hones
      have hfirst := mt BitVec.eq_of_toNat_eq hzero
      change _ ≠ 2047 at hlast
      change _ ≠ 0 at hfirst
      exact ⟨by omega, by omega, by omega, .inl (by omega)⟩

/-! ## order -/

/-- a real number that is not below zero; the sign of a zero does not count -/
def Nonneg (u : UnpackedFloat) : Prop :=
  (∃ s, u = .zero s) ∨ ∃ m e h, u = .finite .positive m e h

theorem HasSign.nonneg {u : UnpackedFloat} (hu : HasSign .positive u) : Nonneg u :=
  hu.imp_left fun h => ⟨_, h⟩

theorem not_nonneg_infinity (s : Sign) : ¬Nonneg (.infinity s) := by
  rintro (⟨s, h⟩ | ⟨m, e, hm, h⟩) <;> cases h

theorem not_nonneg_notANumber : ¬Nonneg .notANumber := by
  rintro (⟨s, h⟩ | ⟨m, e, hm, h⟩) <;> cases h

theorem isFinite_and_le_iff : (x.isFinite = true ∧ 0 ≤ x) ↔ Nonneg (contents x) := by
  rw [le_iff, contents_zero]
  show (contents x).isFinite = true ∧ _ ↔ _
  cases contents x with
  | infinity s => exact ⟨fun h => (nomatch h.1), fun h => absurd h (not_nonneg_infinity s)⟩
  | notANumber => exact ⟨fun h => (nomatch h.1), fun h => absurd h not_nonneg_notANumber⟩
  | zero s => exact ⟨fun _ => .inl ⟨s, rfl⟩, fun _ => ⟨rfl, rfl⟩⟩
  | finite s m e h =>
    cases s with
    | positive => exact ⟨fun _ => .inr ⟨m, e, h, rfl⟩, fun _ => ⟨rfl, rfl⟩⟩
    | negative => exact ⟨fun h => (nomatch h.2), by rintro (⟨s', h⟩ | ⟨m', e', hm', h⟩) <;> cases h⟩

theorem contents_of_not_lt (h : ¬x < 0) :
    contents x = .notANumber ∨ contents x = .infinity .positive ∨ (∃ s, contents x = .zero s) ∨
      ∃ m e h, contents x = .finite .positive m e h := by
  rw [lt_iff, contents_zero] at h
  revert h
  cases contents x with
  | infinity s =>
    cases s with
    | positive => exact fun _ => .inr (.inl rfl)
    | negative => exact fun h => absurd rfl h
  | notANumber => exact fun _ => .inl rfl
  | zero s => exact fun _ => .inr (.inr (.inl ⟨s, rfl⟩))
  | finite s m e h =>
    cases s with
    | positive => exact fun _ => .inr (.inr (.inr ⟨m, e, h, rfl⟩))
    | negative => exact fun h => absurd rfl h

theorem contents_of_not_le (h : ¬x ≤ 0) :
    contents x = .notANumber ∨ contents x = .infinity .positive ∨
      ∃ m e h, contents x = .finite .positive m e h := by
  have hlt : ¬x < 0 := fun hlt => h (le_iff.2 (by
    have hcompare := eq_of_beq (lt_iff.1 hlt)
    rw [UnpackedFloat.le, hcompare]
    rfl))
  rcases contents_of_not_lt hlt with hx | hx | ⟨s, hx⟩ | hx
  · exact .inl hx
  · exact .inr (.inl hx)
  · rw [le_iff, contents_zero, hx] at h
    exact absurd rfl h
  · exact .inr (.inr hx)

/-! ## division -/

def quotientExponent (m₁ : Nat) (e₁ : Int) (m₂ : Nat) (e₂ : Int) : Int :=
  min (e₁ - e₂) (max (m₁.log2 + e₁ - m₂.log2 - e₂ - 53) (-1074))

def quotient (m₁ : Nat) (e₁ : Int) (m₂ : Nat) (e₂ : Int) : Nat :=
  m₁ * 2 ^ (e₁ - e₂ - quotientExponent m₁ e₁ m₂ e₂).toNat / m₂

theorem div_finite (s₁ s₂ : Sign) (e₁ e₂ : Int) (h₁ : 0 < m₁) (h₂ : 0 < m₂) :
    ∃ acc, UnpackedFloat.div Format.binary64 (.finite s₁ m₁ e₁ h₁) (.finite s₂ m₂ e₂ h₂) =
      roundWithAccuracy Format.binary64 (s₁ / s₂) (quotient m₁ e₁ m₂ e₂)
        (quotientExponent m₁ e₁ m₂ e₂) acc := by
  have hmin : Format.binary64.minExponent = -1074 := rfl
  have hbits : Format.binary64.mantissaBits = 53 := rfl
  have hexp : min (e₁ - e₂)
      (Format.binary64.targetExponent (totalExponent m₁ e₁ - totalExponent m₂ e₂)) =
      quotientExponent m₁ e₁ m₂ e₂ := by
    rw [Format.targetExponent, totalExponent, totalExponent, hmin, hbits, quotientExponent]
    omega
  refine ⟨accuracyOfFraction ((m₁ <<< (e₁ - e₂ - quotientExponent m₁ e₁ m₂ e₂).toNat) % m₂) m₂, ?_⟩
  rw [UnpackedFloat.div, divCore, hexp, quotient, ← Nat.shiftLeft_eq]

theorem hasSign_div (s₁ s₂ : Sign) (h₁ : 0 < m₁) (h₂ : 0 < m₂) (hm₁ : m₁ < 2 ^ 53) (hm₂ : 2 ^ 52 ≤ m₂)
    (he : e₁ - e₂ ≤ 1022) :
    HasSign (s₁ / s₂) (repack
      (UnpackedFloat.div Format.binary64 (.finite s₁ m₁ e₁ h₁) (.finite s₂ m₂ e₂ h₂))) := by
  have hlog₁ : m₁.log2 ≤ 52 := log2_le hm₁
  have hlog₂ : 52 ≤ m₂.log2 := (Nat.le_log2 (by omega)).2 hm₂
  have hexp : quotientExponent m₁ e₁ m₂ e₂ ≤ 969 := by
    unfold quotientExponent
    omega
  obtain ⟨acc, hdiv⟩ := div_finite s₁ s₂ e₁ e₂ h₁ h₂
  rw [hdiv]
  refine hasSign_round_of_lt _ acc (by omega) ?_
  have hshift : (e₁ - e₂ - quotientExponent m₁ e₁ m₂ e₂).toNat + 1 ≤
      52 + (971 - quotientExponent m₁ e₁ m₂ e₂).toNat := by omega
  refine lt_of_lt_of_le ?_ (Nat.pow_le_pow_right (by decide) hshift)
  rw [quotient, Nat.div_lt_iff_lt_mul h₂]
  generalize (e₁ - e₂ - quotientExponent m₁ e₁ m₂ e₂).toNat = n
  calc m₁ * 2 ^ n < 2 ^ 53 * 2 ^ n := Nat.mul_lt_mul_of_pos_right hm₁ (Nat.two_pow_pos n)
    _ = 2 ^ (n + 1) * 2 ^ 52 := by ring
    _ ≤ 2 ^ (n + 1) * m₂ := Nat.mul_le_mul_left _ hm₂

theorem div_thousand_iff (h : ¬x < 0) :
    ((x / 1000.0).isFinite = true ∧ 0 ≤ x / 1000.0) ↔ x.isFinite = true := by
  rw [isFinite_and_le_iff, contents_div, contents_thousand]
  show _ ↔ (contents x).isFinite = true
  rcases contents_of_not_lt h with hx | hx | ⟨s, hx⟩ | ⟨m, e, hm, hx⟩
  · rw [hx]
    exact ⟨fun h => absurd h not_nonneg_notANumber, nofun⟩
  · rw [hx]
    exact ⟨fun h => absurd h (not_nonneg_infinity .positive), nofun⟩
  · rw [hx]
    exact ⟨fun _ => rfl, fun _ => .inl ⟨_, repack_zero _⟩⟩
  · have hcanonical := canonical_contents hx
    have hgap : e - -43 ≤ 1022 := by
      have := hcanonical.le_greatest
      omega
    rw [hx]
    exact ⟨fun _ => rfl, fun _ => HasSign.nonneg <|
      hasSign_div .positive .positive hm (by decide) hcanonical.mantissa_lt
        (by decide) hgap⟩

/-! ## inverses -/

def least : Float := nearest false 1 (two 1024)

theorem contents_least : contents least = .finite .positive (2 ^ 50) (-1074) (by decide) := by
  have hbits : least = Float.ofBits 0x4000000000000 := by decide +kernel
  rw [hbits]
  rfl

theorem quotient_small (hm : m.log2 ≤ 51) :
    quotientExponent (2 ^ 52) (-52) m (-1074) = 1021 - m.log2 ∧
      quotient (2 ^ 52) (-52) m (-1074) = 2 ^ (53 + m.log2) / m := by
  have hexp : quotientExponent (2 ^ 52) (-52) m (-1074) = 1021 - m.log2 := by
    rw [quotientExponent, Nat.log2_two_pow]
    omega
  have hshift : (-52 - -1074 - (1021 - (m.log2 : Int))).toNat = m.log2 + 1 := by omega
  refine ⟨hexp, ?_⟩
  rw [quotient, hexp, hshift, ← Nat.pow_add]
  congr 2
  omega

theorem lt_finite_iff (h₁ : 0 < m₁) (h₂ : 0 < m₂) :
    (UnpackedFloat.finite .positive m₁ e₁ h₁).lt (.finite .positive m₂ e₂ h₂) = true ↔
      e₁ < e₂ ∨ (e₁ = e₂ ∧ m₁ < m₂) := by
  show (some ((compare e₁ e₂).then (compare m₁ m₂)) == some .lt) = true ↔ _
  rw [beq_iff_eq, Option.some.injEq, Ordering.then_eq_lt, Int.compare_eq_lt, Nat.compare_eq_lt,
    Int.compare_eq_eq]

theorem hasSign_one_div (h : 0 < m) (hm : Canonical m e) (hleast : -1074 < e ∨ 2 ^ 50 < m) :
    HasSign .positive (repack (UnpackedFloat.div Format.binary64
      (.finite .positive (2 ^ 52) (-52) (by decide)) (.finite .positive m e h))) := by
  by_cases hnormal : 2 ^ 52 ≤ m
  · have hgap : -52 - e ≤ 1022 := by
      have := hm.least_le
      omega
    exact hasSign_div .positive .positive (by decide) h (by decide) hnormal hgap
  · obtain rfl : e = -1074 := hm.normal.resolve_left hnormal
    have hlt : 2 ^ 50 < m := hleast.resolve_left (by decide)
    have hlog : m.log2 ≤ 51 := log2_le (by omega)
    have hlow : 50 ≤ m.log2 := (Nat.le_log2 (by omega)).2 hlt.le
    obtain ⟨hexp, hquotient⟩ := quotient_small hlog
    obtain ⟨acc, hdiv⟩ := div_finite .positive .positive (-52) (-1074)
      (by decide : 0 < 2 ^ 52) h
    rw [hdiv]
    refine hasSign_round _ acc (by omega) ?_
    rw [hexp, hquotient]
    have hself := Nat.log2_self_le h.ne'
    obtain hbits | hbits : m.log2 = 50 ∨ m.log2 = 51 := by omega
    · rw [hbits]
      have hle : 2 ^ 103 / m ≤ 2 ^ 103 / (2 ^ 50 + 1) := Nat.div_le_div_left hlt (by decide)
      exact le_trans (Nat.succ_le_succ hle) (by decide)
    · rw [hbits] at hself ⊢
      have hle : 2 ^ 104 / m ≤ 2 ^ 104 / 2 ^ 51 := Nat.div_le_div_left hself (by decide)
      exact le_trans (Nat.succ_le_succ hle) (by decide)

theorem infinite_one_div (h : 0 < m) (hm : m ≤ 2 ^ 50) :
    repack (UnpackedFloat.div Format.binary64
      (.finite .positive (2 ^ 52) (-52) (by decide)) (.finite .positive m (-1074) h)) =
      .infinity .positive := by
  have hlog : m.log2 ≤ 50 := log2_le (by omega)
  obtain ⟨hexp, hquotient⟩ := quotient_small (m := m) (by omega)
  obtain ⟨acc, hdiv⟩ := div_finite .positive .positive (-52) (-1074)
    (by decide : 0 < 2 ^ 52) h
  have hself := Nat.log2_self_le h.ne'
  have hlarge : 2 ^ 52 ≤ 2 ^ (53 + m.log2) / m := by
    have hlt : m < 2 ^ (m.log2 + 1) := Nat.lt_log2_self
    rw [Nat.le_div_iff_mul_le h]
    calc 2 ^ 52 * m ≤ 2 ^ 52 * 2 ^ (m.log2 + 1) := Nat.mul_le_mul_left _ hlt.le
      _ = 2 ^ (53 + m.log2) := by ring
  rw [hdiv, hexp, hquotient]
  refine infinite_round _ acc hlarge ?_
  rcases hlog.lt_or_eq with hlt | heq
  · have hbits : 52 ≤ (2 ^ (53 + m.log2) / m).log2 := (Nat.le_log2 (by omega)).2 hlarge
    omega
  · obtain rfl : m = 2 ^ 50 := le_antisymm hm (heq ▸ hself)
    decide

theorem one_div_iff (h : ¬x ≤ 0) :
    ((1.0 / x).isFinite = true ∧ 0 ≤ 1.0 / x) ↔ least < x := by
  rw [isFinite_and_le_iff, contents_div, contents_one, lt_iff, contents_least]
  rcases contents_of_not_le h with hx | hx | ⟨m, e, hm, hx⟩
  · rw [hx]
    exact ⟨fun h => absurd h not_nonneg_notANumber, nofun⟩
  · rw [hx]
    exact ⟨fun _ => rfl, fun _ => .inl ⟨_, repack_zero _⟩⟩
  · have hcanonical := canonical_contents hx
    rw [hx, lt_finite_iff]
    constructor
    · intro hfinite
      by_contra hleast
      obtain ⟨hexp, hlt⟩ := not_or.1 hleast
      obtain rfl : e = -1074 := le_antisymm (not_lt.1 hexp) hcanonical.least_le
      rw [infinite_one_div hm (not_lt.1 fun h => hlt ⟨rfl, h⟩)] at hfinite
      exact not_nonneg_infinity _ hfinite
    · exact fun hleast => (hasSign_one_div hm hcanonical (hleast.imp_right And.right)).nonneg

end ChipEight.Decimal
