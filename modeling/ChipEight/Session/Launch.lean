import ChipEight.Program
import ChipEight.Session.Host
import ChipEight.Settings.Cadence
import ChipEight.Settings.Load

/-!
# Launching sessions

* `Source`             what a session is made from: a program, or a saved state, given or in a file;
* `LaunchError`        why there is no session;
* `Source.machineBy`   the machine that a source gives, by what is handed out for each path;
* `Host.ofLoaded`      the session of that machine, its cadences and tracing as the settings say;
* `Host.ofSource`      the two together.

A bad source is refused before the settings are looked at.
-/

namespace ChipEight

inductive Source where
  | program (bytes : List UInt8)
  /-- something that is no program at all, by its kind -/
  | other (kind : String)
  | programFile (path : String)
  | saved (bytes : List UInt8)
  | saveFile (path : String)

inductive LaunchError where
  | unloadable (text : String)
  | path (e : FileError)
  | settings (e : SettingsError)
  | loading (e : Settings.LoadError)
  | number (e : Value.NumberError)
  deriving DecidableEq, Repr

namespace Source

def withProgram (dice : Dice) (more : Program → List LogEntry) :
    Program.Loaded → Except LaunchError Machine × List LogEntry
  | (.ok p, log) => (.ok ((Machine.fresh dice false).load p.image), log ++ more p)
  | (.error e, log) => (.error (.unloadable e.message), log)

def machineBy (src : Source) (read : Reader) (dice : Dice) :
    Except LaunchError Machine × List LogEntry :=
  match src with
  | .program bytes => withProgram dice (fun _ => []) (Program.ofBytes bytes)
  | .other kind => withProgram dice (fun _ => []) (.error (.notBytes kind), [])
  | .programFile path =>
    match Program.ofReading path (read path) with
    | .ok loaded => withProgram dice (fun p => [.info ("Loaded " ++ p.description)]) loaded
    | .error e => (.error (.path e), [])
  | .saved bytes =>
    match Machine.restore bytes dice false with
    | .ok m => (.ok m, [])
    | .error e => (.error (.unloadable ("Corrupt save state: " ++ e.message)), [])
  | .saveFile path =>
    match State.ofReading path (read (Path.normal path)) with
    | .ok (.ok s) => (.ok (.ofState s dice false), [])
    | .ok (.error e) => (.error (.unloadable e.message), [])
    | .error e => (.error (.path e), [])

def machine (src : Source) (fs : Files) (dice : Dice) :
    Except LaunchError Machine × List LogEntry :=
  src.machineBy fs.read dice

end Source

/-- tracing and the two cadences, looked up in the order in which they are needed -/
def Settings.cadences (v : Value) : Except LaunchError (Bool × Float × Float) := do
  let look2 (group key : String) : Except LaunchError Value :=
    (do Settings.look (← Settings.look v group) key).mapError .settings
  let tracing ← look2 "debug" "trace"
  let tick ← (tickInterval (← look2 "timing" "tick_interval_ms")).mapError .number
  let timer ← (timerInterval (← look2 "timing" "timer_hz")).mapError .number
  return (tracing.truthy, tick, timer)

def Settings.given (fs : Files) : Option Value → Except LaunchError (Value × List LogEntry)
  | some v => .ok (v, [])
  | none =>
    match Settings.load fs Settings.usualFile with
    | .ok (t, log) => .ok (.table t, log)
    | .error e => .error (.loading e)

namespace Host

variable {κ : Type} [Clock κ Float]

def ofMachine (m : Machine) (fs : Files) (clock : κ) (tracing : Bool) (tick timer : Float) :
    Host κ Float :=
  .ofSession (.start (.ofMachine { m with tracing }) .fresh clock (some tick) timer fs)

def ofLoaded (config : Option Value) (fs : Files) (clock : κ) :
    Except LaunchError Machine × List LogEntry → Except LaunchError (Host κ Float) × List LogEntry
  | (.error e, log) => (.error e, log)
  | (.ok m, log) =>
    match Settings.given fs config with
    | .error e => (.error e, log)
    | .ok (v, more) =>
      (do
        let (tracing, tick, timer) ← Settings.cadences v
        return .ofMachine m fs clock tracing tick timer, log ++ more)

def ofSource (src : Source) (config : Option Value) (fs : Files) (dice : Dice) (clock : κ) :
    Except LaunchError (Host κ Float) × List LogEntry :=
  ofLoaded config fs clock (src.machine fs dice)

end Host

end ChipEight
