import ChipEight.Proofs.Settings.Tables
import ChipEight.Proofs.Stages
import ChipEight.Settings.Load

/-!
# Settings by sections

* `Section`             the three sections that settings have;
* `Section.usual`, `check`   the entries of a section in the defaults, and what is checked of it;
* `Section.given o`     a section of the defaults with the entries that `o` gives it;
* `validate_merge`      the sections are checked one after another;
* `Section.check_given_iff`   a section has the wrong shape if it is given something that is no
  table, and in no other case;
* `Misshapen o s`       the first thing that is wrong with `o` is the shape of its section `s`;
* `validate_misshapen_iff`   only then do settings have the wrong shape.
-/

namespace ChipEight

namespace Settings

inductive Section where
  | timing
  | debug
  | keyboard
  deriving DecidableEq, Repr

namespace Section

def name : Section → String
  | timing => "timing"
  | debug => "debug"
  | keyboard => "keyboard"

def usual : Section → Table
  | timing => [("tick_interval_ms", .float 2.0), ("timer_hz", .float 60.0)]
  | debug => [("trace", .bool false)]
  | keyboard => defaultKeyboard.map fun p => (p.1, .str p.2)

def check : Section → Value → Except SettingsError Unit
  | timing, v => do
    Settings.check (isNotNegative (← look v "tick_interval_ms")) .tickInterval
    Settings.check (isPositive (← look v "timer_hz")) .timerHz
  | debug, v => do Settings.check (isBool (← look v "trace")) .trace
  | keyboard, v => checkKeyboard v

/-- what is wrong with a section that is no table -/
def shapeError : Section → SettingsError
  | timing => .notSubscriptable
  | debug => .notSubscriptable
  | keyboard => .noEntries

/-- the sections that are checked before -/
def earlier : Section → List Section
  | timing => []
  | debug => [timing]
  | keyboard => [timing, debug]

def given (o : Table) (s : Section) : Value :=
  match o.get? s.name with
  | some v => .over (some (.table s.usual)) v
  | none => .table s.usual

variable {s : Section} {o : Table} {v : Value} {e : SettingsError}

theorem get?_defaults (s : Section) : defaults.get? s.name = some (.table s.usual) := by
  cases s <;> rfl

theorem check_usual (s : Section) : s.check (.table s.usual) = .ok () := by cases s <;> rfl

/-! ## shapes -/

theorem check_of_not_isTable (h : v.isTable = false) (s : Section) :
    s.check v = .error s.shapeError := by
  cases v with
  | table o => cases h
  | _ => cases s <;> rfl

/-- what a table has is still found after a merge -/
theorem look_merge_of_isSome {t : Table} {key : String} (h : (t.get? key).isSome)
    (entries : List (String × Value)) : ∃ v, look (.table (t.merge entries)) key = .ok v := by
  obtain ⟨v, hv⟩ := Option.isSome_iff_exists.1 (Table.isSome_get?_merge h entries)
  exact ⟨v, by rw [look, hv]⟩

theorem ofValue_of_check {ok : Bool} (he : e.ofValue = true) {e' : SettingsError}
    (h : Settings.check ok e = .error e') : e'.ofValue = true := by
  unfold Settings.check at h
  split at h
  · cases h
  · cases h
    exact he

theorem ofValue_of_checkNames {t : Table} (h : checkNames t = .error e) : e.ofValue = true := by
  induction t with
  | nil => cases h
  | cons p rest ih =>
    obtain ⟨key, v⟩ := p
    cases v with
    | str name => exact ih h
    | _ =>
      cases h
      rfl

theorem ofValue_of_check_merge (s : Section) (o : List (String × Value))
    (h : s.check (.table (s.usual.merge o)) = .error e) : e.ofValue = true := by
  cases s with
  | timing =>
    obtain ⟨tick, htick⟩ := look_merge_of_isSome
      (show (timing.usual.get? "tick_interval_ms").isSome from rfl) o
    obtain ⟨hz, hhz⟩ := look_merge_of_isSome
      (show (timing.usual.get? "timer_hz").isSome from rfl) o
    have hcheck : Settings.check (isNotNegative tick) .tickInterval >>=
        (fun _ => Settings.check (isPositive hz) .timerHz) = .error e := by
      rw [check, htick, hhz] at h
      exact h
    rcases bind_eq_error_iff.1 hcheck with htick | ⟨⟨⟩, -, hhz⟩
    · exact ofValue_of_check rfl htick
    · exact ofValue_of_check rfl hhz
  | debug =>
    obtain ⟨trace, htrace⟩ := look_merge_of_isSome
      (show (debug.usual.get? "trace").isSome from rfl) o
    rw [check, htrace] at h
    exact ofValue_of_check rfl h
  | keyboard => exact ofValue_of_checkNames h

/-- the section is given something that is no table -/
def Unshaped (o : Table) (s : Section) : Prop := ∃ v, o.get? s.name = some v ∧ v.isTable = false

theorem check_given_iff :
    (s.check (s.given o) = .error e ∧ e.ofValue = false) ↔ s.Unshaped o ∧ e = s.shapeError := by
  have hshape : s.shapeError.ofValue = false := by cases s <;> rfl
  constructor
  · rintro ⟨h, he⟩
    cases hv : o.get? s.name with
    | none =>
      rw [given, hv] at h
      rw [check_usual] at h
      cases h
    | some v =>
      rw [given, hv] at h
      dsimp only at h
      cases ht : v.isTable with
      | false =>
        rw [Value.over_of_not_isTable ht, check_of_not_isTable ht] at h
        cases h
        exact ⟨⟨v, hv, ht⟩, rfl⟩
      | true =>
        cases v with
        | table entries =>
          rw [Value.over_table] at h
          rw [ofValue_of_check_merge s entries h] at he
          cases he
        | _ => cases ht
  · rintro ⟨⟨v, hv, ht⟩, rfl⟩
    rw [given, hv]
    dsimp only
    rw [Value.over_of_not_isTable ht, check_of_not_isTable ht]
    exact ⟨rfl, hshape⟩

end Section

/-! ## all sections -/

variable {o : Table} {e : SettingsError}

theorem validate_eq (t : Table) :
    validate t = (do
      Section.timing.check (← look (.table t) "timing")
      Section.debug.check (← look (.table t) "debug")
      Section.keyboard.check (← look (.table t) "keyboard")) := by
  simp only [validate, look2, Section.check, bind_assoc]
  cases look (.table t) "timing" <;> rfl

theorem look_merge (ho : o.Distinct) (s : Section) :
    look (.table (defaults.merge o)) s.name = .ok (s.given o) := by
  rw [look, Table.get?_merge ho, s.get?_defaults, Section.given]
  cases o.get? s.name <;> rfl

theorem validate_merge (ho : o.Distinct) :
    validate (defaults.merge o) = (do
      Section.timing.check (Section.timing.given o)
      Section.debug.check (Section.debug.given o)
      Section.keyboard.check (Section.keyboard.given o)) := by
  have htiming : look (.table (defaults.merge o)) "timing" = _ := look_merge ho .timing
  have hdebug : look (.table (defaults.merge o)) "debug" = _ := look_merge ho .debug
  have hkeyboard : look (.table (defaults.merge o)) "keyboard" = _ := look_merge ho .keyboard
  rw [validate_eq, htiming, hdebug, hkeyboard]
  rfl

def Misshapen (o : Table) (s : Section) : Prop :=
  s.Unshaped o ∧ ∀ r ∈ s.earlier, r.check (r.given o) = .ok ()

theorem validate_misshapen_iff (ho : o.Distinct) :
    (validate (defaults.merge o) = .error e ∧ e.ofValue = false) ↔
      ∃ s, Misshapen o s ∧ e = s.shapeError := by
  rw [validate_merge ho, bind_eq_error_iff, bind_eq_error_iff]
  constructor
  · rintro ⟨htiming | ⟨⟨⟩, htiming, hdebug | ⟨⟨⟩, hdebug, hkeyboard⟩⟩, he⟩
    · obtain ⟨hshape, rfl⟩ := Section.check_given_iff.1 ⟨htiming, he⟩
      exact ⟨.timing, ⟨hshape, nofun⟩, rfl⟩
    · obtain ⟨hshape, rfl⟩ := Section.check_given_iff.1 ⟨hdebug, he⟩
      exact ⟨.debug, ⟨hshape, by simpa [Section.earlier] using htiming⟩, rfl⟩
    · obtain ⟨hshape, rfl⟩ := Section.check_given_iff.1 ⟨hkeyboard, he⟩
      exact ⟨.keyboard, ⟨hshape, by simpa [Section.earlier] using ⟨htiming, hdebug⟩⟩, rfl⟩
  · rintro ⟨s, ⟨hshape, hearlier⟩, rfl⟩
    obtain ⟨hcheck, he⟩ := Section.check_given_iff.2 ⟨hshape, rfl⟩
    refine ⟨?_, he⟩
    cases s with
    | timing => exact .inl hcheck
    | debug => exact .inr ⟨(), hearlier .timing (by decide), .inl hcheck⟩
    | keyboard =>
      exact .inr ⟨(), hearlier .timing (by decide), .inr ⟨(), hearlier .debug (by decide), hcheck⟩⟩

end Settings

end ChipEight
