import ChipEight.Proofs.Decimal.Integers
import ChipEight.Proofs.Settings.Loading
import ChipEight.Session.Launch

/-!
# Cadences of valid settings

* `validate_eq_ok`        what valid settings hold;
* `Value.TooLarge`        an integer that no finite double is next to;
* `tickInterval_cases`, `timerInterval_cases`   the cadences that numbers in range give;
* `cadences_outcomes`     when valid settings give cadences, and when these are usable;
* `cadences_unusable`     not all valid settings give cadences that are.
-/

namespace ChipEight

open Decimal

namespace Value

def TooLarge : Value → Prop
  | int n => two 1024 - two 970 ≤ n.natAbs
  | _ => False

/-- a number that a thousandth can be taken of -/
def Divisible : Value → Prop
  | int _ => True
  | float x => x.isFinite = true
  | _ => False

/-- a number whose inverse is not too large -/
def Invertible : Value → Prop
  | int _ => True
  | float x => least < x
  | _ => False

end Value

namespace Settings

variable {t : Table} {v : Value}

/-! ## values in range -/

theorem isNotNegative_cases (h : isNotNegative v = true) :
    (∃ n, v = .int n ∧ 0 ≤ n) ∨ ∃ x, v = .float x ∧ ¬x < 0 := by
  cases v with
  | int n => exact .inl ⟨n, rfl, not_lt.1 (by simpa [isNotNegative] using h)⟩
  | float x => exact .inr ⟨x, rfl, by simpa [isNotNegative] using h⟩
  | _ => cases h

theorem isPositive_cases (h : isPositive v = true) :
    (∃ n, v = .int n ∧ 0 < n) ∨ ∃ x, v = .float x ∧ ¬x ≤ 0 := by
  cases v with
  | int n => exact .inl ⟨n, rfl, not_le.1 (by simpa [isPositive] using h)⟩
  | float x => exact .inr ⟨x, rfl, by simpa [isPositive] using h⟩
  | _ => cases h

theorem divide_eq {x y : Float} (h : (y == 0) = false) : divide x y = .ok (x / y) := by
  rw [divide, h]
  rfl

theorem beq_zero_of_not_le {x : Float} (h : ¬x ≤ 0) : (x == 0) = false := by
  show (contents x).beq (contents 0) = false
  rw [contents_zero]
  rcases contents_of_not_le h with hx | hx | ⟨m, e, hm, hx⟩
  · rw [hx]
    rfl
  · rw [hx]
    rfl
  · rw [hx]
    rfl

theorem toFloat_int (n : Int) :
    (Value.TooLarge (.int n) ∧ Value.toFloat (.int n) = .error .overflow) ∨
      (¬Value.TooLarge (.int n) ∧ ∃ x, ofInt? n = some x ∧ Value.toFloat (.int n) = .ok x) := by
  rw [Value.toFloat]
  cases hx : ofInt? n with
  | none =>
    refine .inl ⟨not_lt.1 fun hlt => ?_, rfl⟩
    rw [ofInt?_eq_some_iff.2 ⟨hlt, rfl⟩] at hx
    cases hx
  | some x => exact .inr ⟨not_le.2 (ofInt?_eq_some_iff.1 hx).1, x, rfl, rfl⟩

theorem nonneg_ofInt? {n : Int} {x : Float} (h : ofInt? n = some x) (hn : 0 ≤ n) :
    x.isFinite = true ∧ 0 ≤ x := by
  rw [isFinite_and_le_iff]
  rcases hn.lt_or_eq with hlt | rfl
  · obtain ⟨m, e, hm, hx, -⟩ := contents_ofInt? h hlt
    exact .inr ⟨m, e, hm, hx⟩
  · exact .inl ⟨_, contents_ofInt?_zero h⟩

theorem not_lt_of_nonneg {x : Float} (h : x.isFinite = true ∧ 0 ≤ x) : ¬x < 0 := by
  rw [lt_iff, contents_zero]
  rcases isFinite_and_le_iff.1 h with ⟨s, hx⟩ | ⟨m, e, hm, hx⟩
  · rw [hx]
    exact Bool.noConfusion
  · rw [hx]
    exact Bool.noConfusion

theorem tickInterval_of_toFloat {x : Float} (h : v.toFloat = .ok x) :
    tickInterval v = .ok (x / 1000.0) := by
  rw [tickInterval, h]
  exact divide_eq (y := 1000.0) rfl

theorem timerInterval_of_toFloat {x : Float} (h : v.toFloat = .ok x) (hx : ¬x ≤ 0) :
    timerInterval v = .ok (1.0 / x) := by
  rw [timerInterval, h]
  exact divide_eq (beq_zero_of_not_le hx)

theorem tickInterval_cases (h : isNotNegative v = true) :
    (v.TooLarge ∧ tickInterval v = .error .overflow) ∨
      (¬v.TooLarge ∧
        ∃ x, tickInterval v = .ok x ∧ ((x.isFinite = true ∧ 0 ≤ x) ↔ v.Divisible)) := by
  obtain ⟨n, rfl, hn⟩ | ⟨x, rfl, hx⟩ := isNotNegative_cases h
  · obtain ⟨hlarge, hfloat⟩ | ⟨hsmall, x, hint, hfloat⟩ := toFloat_int n
    · rw [tickInterval, hfloat]
      exact .inl ⟨hlarge, rfl⟩
    · have hnonneg := nonneg_ofInt? hint hn
      have hfinite := (div_thousand_iff (not_lt_of_nonneg hnonneg)).2 hnonneg.1
      exact .inr ⟨hsmall, _, tickInterval_of_toFloat hfloat, iff_of_true hfinite trivial⟩
  · exact .inr ⟨id, _, tickInterval_of_toFloat rfl, div_thousand_iff hx⟩

theorem timerInterval_cases (h : isPositive v = true) :
    (v.TooLarge ∧ timerInterval v = .error .overflow) ∨
      (¬v.TooLarge ∧
        ∃ x, timerInterval v = .ok x ∧ ((x.isFinite = true ∧ 0 ≤ x) ↔ v.Invertible)) := by
  obtain ⟨n, rfl, hn⟩ | ⟨x, rfl, hx⟩ := isPositive_cases h
  · obtain ⟨hlarge, hfloat⟩ | ⟨hsmall, x, hint, hfloat⟩ := toFloat_int n
    · rw [timerInterval, hfloat]
      exact .inl ⟨hlarge, rfl⟩
    · obtain ⟨m, e, hm, hx, he⟩ := contents_ofInt? hint hn
      have hpos : ¬x ≤ 0 := by
        rw [le_iff, hx]
        exact Bool.noConfusion
      have hleast : least < x := by
        rw [lt_iff, contents_least, hx, lt_finite_iff]
        exact .inl he
      exact .inr ⟨hsmall, _, timerInterval_of_toFloat hfloat hpos,
        iff_of_true ((one_div_iff hpos).2 hleast) trivial⟩
  · exact .inr ⟨id, _, timerInterval_of_toFloat rfl hx, one_div_iff hx⟩

/-! ## valid settings -/

theorem check_eq_ok {ok : Bool} {e : SettingsError} (h : check ok e = .ok ()) : ok = true := by
  unfold check at h
  split at h
  · assumption
  · cases h

theorem validate_eq_ok (h : validate t = .ok ()) :
    ∃ tick hz tracing, look2 t "timing" "tick_interval_ms" = .ok tick ∧
      look2 t "timing" "timer_hz" = .ok hz ∧ look2 t "debug" "trace" = .ok (.bool tracing) ∧
      isNotNegative tick = true ∧ isPositive hz = true := by
  unfold validate at h
  obtain ⟨tick, htick, h⟩ := of_bind_ok h
  obtain ⟨⟨⟩, hnotNegative, h⟩ := of_bind_ok h
  obtain ⟨hz, hhz, h⟩ := of_bind_ok h
  obtain ⟨⟨⟩, hpositive, h⟩ := of_bind_ok h
  obtain ⟨trace, htrace, h⟩ := of_bind_ok h
  obtain ⟨⟨⟩, hbool, h⟩ := of_bind_ok h
  obtain ⟨tracing, rfl⟩ : ∃ tracing, trace = .bool tracing := by
    have htrue := check_eq_ok hbool
    cases trace with
    | bool tracing => exact ⟨tracing, rfl⟩
    | _ => cases htrue
  exact ⟨tick, hz, tracing, htick, hhz, htrace, check_eq_ok hnotNegative, check_eq_ok hpositive⟩

/-- cadences are made of three values that are looked up one after another -/
theorem cadences_eq {tick hz : Value} {tracing : Bool}
    (htick : look2 t "timing" "tick_interval_ms" = .ok tick)
    (hhz : look2 t "timing" "timer_hz" = .ok hz)
    (htrace : look2 t "debug" "trace" = .ok (.bool tracing)) :
    cadences (.table t) = (do
      let x ← (tickInterval tick).mapError .number
      let y ← (timerInterval hz).mapError .number
      return (tracing, x, y)) := by
  show (do
    let trace ← (look2 t "debug" "trace").mapError LaunchError.settings
    let x ← (tickInterval (← (look2 t "timing" "tick_interval_ms").mapError .settings)).mapError
      .number
    let y ← (timerInterval (← (look2 t "timing" "timer_hz").mapError .settings)).mapError .number
    return (trace.truthy, x, y)) = _
  rw [htick, hhz, htrace]
  rfl

/-- Valid settings give cadences unless a number is an integer that is too large. The least time
between two instructions can then be used unless it was given as an infinity or as no number, and
the time between two ticks of the timers unless their frequency was given as no number or as a
double that is too small. -/
theorem cadences_outcomes (h : validate t = .ok ()) :
    ∃ tick hz tracing, look2 t "timing" "tick_interval_ms" = .ok tick ∧
      look2 t "timing" "timer_hz" = .ok hz ∧ look2 t "debug" "trace" = .ok (.bool tracing) ∧
      (∀ e, cadences (.table t) = .error e ↔
        e = .number .overflow ∧ (tick.TooLarge ∨ hz.TooLarge)) ∧
      ∀ b x y, cadences (.table t) = .ok (b, x, y) → b = tracing ∧
        ((x.isFinite = true ∧ 0 ≤ x) ↔ tick.Divisible) ∧
        ((y.isFinite = true ∧ 0 ≤ y) ↔ hz.Invertible) := by
  obtain ⟨tick, hz, tracing, htick, hhz, htrace, hnotNegative, hpositive⟩ := validate_eq_ok h
  refine ⟨tick, hz, tracing, htick, hhz, htrace, ?_⟩
  rw [cadences_eq htick hhz htrace]
  obtain ⟨hlarge, hx⟩ | ⟨hsmall, x, hx, hdivisible⟩ := tickInterval_cases hnotNegative
  · rw [hx]
    refine ⟨fun e => ⟨fun he => ?_, fun he => he.1 ▸ rfl⟩, nofun⟩
    cases he
    exact ⟨rfl, .inl hlarge⟩
  · rw [hx]
    obtain ⟨hlarge, hy⟩ | ⟨hsmall', y, hy, hinvertible⟩ := timerInterval_cases hpositive
    · rw [hy]
      refine ⟨fun e => ⟨fun he => ?_, fun he => he.1 ▸ rfl⟩, nofun⟩
      cases he
      exact ⟨rfl, .inr hlarge⟩
    · rw [hy]
      refine ⟨fun e => ⟨nofun, fun he => absurd he.2 (not_or.2 ⟨hsmall, hsmall'⟩)⟩, ?_⟩
      intro b x' y' hok
      cases hok
      exact ⟨rfl, hdivisible, hinvertible⟩

theorem cadences_outcomes_defaults :
    validate defaults = .ok () ∧ ∃ x y, cadences (.table defaults) = .ok (false, x, y) ∧
      (x.isFinite = true ∧ 0 ≤ x) ∧ y.isFinite = true ∧ 0 ≤ y := by
  refine ⟨validate_defaults, ?_⟩
  obtain ⟨tick, hz, tracing, htick, hhz, htrace, herror, hok⟩ := cadences_outcomes validate_defaults
  cases htick
  cases hhz
  cases htrace
  cases hcadences : cadences (.table defaults) with
  | error e => exact ((herror e).1 hcadences).2.elim nofun nofun
  | ok r =>
    obtain ⟨b, x, y⟩ := r
    obtain ⟨rfl, hdivisible, hinvertible⟩ := hok b x y hcadences
    have htick : (2.0 : Float).isFinite = true := by decide +kernel
    have hhz : least < 60.0 := by decide +kernel
    exact ⟨x, y, rfl, hdivisible.2 htick, hinvertible.2 hhz⟩

/-- a least time between two instructions that is no number -/
def unpaced : Table := defaults.merge [("timing", .table [("tick_interval_ms", .float (0 / 0))])]

/-- what is no number is not below zero either -/
theorem cadences_unusable :
    ¬∀ t, validate t = .ok () → ∃ b x y, cadences (.table t) = .ok (b, x, y) ∧
      (x.isFinite = true ∧ 0 ≤ x) ∧ y.isFinite = true ∧ 0 ≤ y := by
  intro h
  obtain ⟨b, x, y, hcadences, ⟨hfinite, -⟩, -⟩ := h unpaced (by rfl)
  have hnone : (cadences (.table unpaced)).toOption.any (·.2.1.isFinite) = false := by
    decide +kernel
  rw [hcadences] at hnone
  exact Bool.noConfusion (hfinite.symm.trans hnone)

end Settings

end ChipEight
