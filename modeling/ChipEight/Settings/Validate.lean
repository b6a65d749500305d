import ChipEight.Settings.Value

/-!
# Validation

* `SettingsError`        why settings cannot be used: a value that is out of range, or settings of
  the wrong shape, in which no value can be looked up;
* `Settings.look v key`  the value under a key of what should be a table;
* `Settings.validate t`  the first thing that is wrong with settings.

Values are looked at in a fixed order, and a value is only looked up when its turn has come.
-/

namespace ChipEight

inductive SettingsError where
  | missingKey
  | notSubscriptable
  | noEntries
  | tickInterval
  | timerHz
  | trace
  | keyName (key : String)
  deriving DecidableEq, Repr

namespace SettingsError

/-- the settings have the right shape, and a value is wrong -/
def ofValue : SettingsError → Bool
  | missingKey => false
  | notSubscriptable => false
  | noEntries => false
  | _ => true

/-- a wrong shape has no wording -/
def message : SettingsError → String
  | tickInterval => "timing.tick_interval_ms must be a non-negative number"
  | timerHz => "timing.timer_hz must be a positive number"
  | trace => "debug.trace must be a boolean"
  | keyName key => "keyboard." ++ key ++ " must be a key name string"
  | _ => ""

end SettingsError

namespace Settings

/-! ## looking up -/

def look (v : Value) (key : String) : Except SettingsError Value :=
  match v with
  | .table t =>
    match Table.get? t key with
    | some v => .ok v
    | none => .error .missingKey
  | _ => .error .notSubscriptable

def look2 (t : Table) (group key : String) : Except SettingsError Value := do
  look (← look (.table t) group) key

/-! ## validation -/

/-- an integer or a float, and not below zero; nothing compares with what is no number -/
def isNotNegative : Value → Bool
  | .int n => !(n < 0)
  | .float x => !(x < 0)
  | _ => false

def isPositive : Value → Bool
  | .int n => !(n ≤ 0)
  | .float x => !(x ≤ 0)
  | _ => false

/-- the first key that is not bound to a name -/
def checkNames : Table → Except SettingsError Unit
  | [] => .ok ()
  | (_, .str _) :: rest => checkNames rest
  | (key, _) :: _ => .error (.keyName key)

def checkKeyboard : Value → Except SettingsError Unit
  | .table t => checkNames t
  | _ => .error .noEntries

def check (ok : Bool) (e : SettingsError) : Except SettingsError Unit :=
  if ok then .ok () else .error e

def isBool : Value → Bool
  | .bool _ => true
  | _ => false

def validate (t : Table) : Except SettingsError Unit := do
  check (isNotNegative (← look2 t "timing" "tick_interval_ms")) .tickInterval
  check (isPositive (← look2 t "timing" "timer_hz")) .timerHz
  check (isBool (← look2 t "debug" "trace")) .trace
  checkKeyboard (← look (.table t) "keyboard")

end Settings

end ChipEight
