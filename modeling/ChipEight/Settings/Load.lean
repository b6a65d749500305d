import ChipEight.Files.Tree
import ChipEight.Log
import ChipEight.Settings.Merge
import ChipEight.Settings.Validate
import ChipEight.Toml.Document

/-!
# Loading settings

* `Settings.defaults`       the settings of a session that is told none;
* `Settings.ofBytes bytes`  the settings in the bytes of a file, over the defaults;
* `Settings.loadBy`         the settings of a file, by what a look at its path finds and what reading
  it gives;
* `Settings.load fs path`   the settings of a file in the tree.

What is wrong with the file or its values is logged, and the defaults are used; a wrong shape is not
made up for, nor is a path that the system does not let be looked at.
-/

namespace ChipEight.Settings

def defaultKeyboard : List (String × String) :=
  [("1", "1"), ("2", "2"), ("3", "3"), ("C", "4"),
   ("4", "q"), ("5", "w"), ("6", "e"), ("D", "r"),
   ("7", "a"), ("8", "s"), ("9", "d"), ("E", "f"),
   ("A", "z"), ("0", "x"), ("B", "c"), ("F", "v")]

def defaults : Table :=
  [("timing", .table [("tick_interval_ms", .float 2.0), ("timer_hz", .float 60.0)]),
   ("debug", .table [("trace", .bool false)]),
   ("keyboard", .table (defaultKeyboard.map fun p => (p.1, .str p.2)))]

inductive LoadError where
  | file (path : String) (e : FileError)
  | settings (e : SettingsError)
  deriving DecidableEq, Repr

inductive Rejection where
  | unreadable (path : String) (e : FileError)
  | notText
  | notToml (e : Toml.TomlError)
  | invalid (e : SettingsError)
  deriving DecidableEq, Repr

def Rejection.message : Rejection → String
  | unreadable path e => e.message path
  | notText => "UTF-8"
  | notToml .syntaxError => "TOML"
  | notToml (.tooManyDigits n) =>
    "Exceeds the limit (" ++ toString Toml.mostDigits
      ++ " digits) for integer string conversion: value has " ++ toString n
      ++ " digits; use sys.set_int_max_str_digits() to increase the limit"
  | invalid e => e.message

def ofBytes (bytes : List UInt8) : Except Rejection Table :=
  match String.fromUTF8? ⟨bytes.toArray⟩ with
  | none => .error .notText
  | some text =>
    match Toml.parse text with
    | .error e => .error (.notToml e)
    | .ok t =>
      let merged := defaults.merge t
      match validate merged with
      | .error e => .error (.invalid e)
      | .ok () => .ok merged

def usualFile : String := "config.toml"

def readFile (path : String) : Except FileError (List UInt8) → Except Rejection Table
  | .error e => .error (.unreadable path e)
  | .ok bytes => ofBytes bytes

/-- a look at a path that fails for this reason says that nothing is there -/
def isAbsence : FileError → Bool
  | .missing | .notFolder | .looped | .embeddedNul => true
  | .isFolder | .nameTooLong | .refused _ => false

/-- whether there is something, by what a look at the path found -/
def present : Except FileError Bool → Except FileError Bool
  | .ok b => .ok b
  | .error e => if isAbsence e then .ok false else .error e

def fallBack : Except Rejection Table → Except LoadError (Table × List LogEntry)
  | .ok t => .ok (t, [])
  | .error (.invalid e) =>
    if e.ofValue then
      .ok (defaults, [.error ("Failed to load config: " ++ e.message)])
    else .error (.settings e)
  | .error r => .ok (defaults, [.error ("Failed to load config: " ++ r.message)])

def loadBy (path : String) (there : Except FileError Bool)
    (reading : Except FileError (List UInt8)) : Except LoadError (Table × List LogEntry) :=
  match present there with
  | .error e => .error (.file path e)
  | .ok false => .ok (defaults, [])
  | .ok true => fallBack (readFile path reading)

def load (fs : Files) (path : String) : Except LoadError (Table × List LogEntry) :=
  let path := Path.normal path
  loadBy path (fs.exists? path) (fs.read path)

end ChipEight.Settings
