import ChipEight.Files.Tree
import ChipEight.Machine.SaveState

/-!
# Saved states in files

* `State.ofReading`      the state saved in a file, by what reading the file gave;
* `State.ofFile`         the same of a file that is read, under its normal path;
* `State.toFile`         a state written to a file; it is put together before the file is opened;
* `SaveFileError`        why there is no state in a file: it could not be read, or holds none.
-/

namespace ChipEight

inductive SaveFileError where
  | unreadable (path : String) (why : FileError)
  | corrupt (path : String) (why : SaveError)
  deriving DecidableEq, Repr

/-- a file that cannot be read is named as given, and then as it was looked for -/
def SaveFileError.message : SaveFileError → String
  | unreadable path why =>
    "Failed to read save state " ++ path ++ ": " ++ why.message (Path.normal path)
  | corrupt path why => "Corrupt save state " ++ path ++ ": " ++ why.message

inductive StoreError where
  | unpackable (why : PackError)
  | unwritable (why : FileError)
  deriving DecidableEq, Repr

namespace State

def ofReading (path : String) :
    Except FileError (List UInt8) → Except FileError (Except SaveFileError State)
  | .ok bytes => .ok ((decode bytes).mapError (.corrupt path))
  | .error e => if e.ofSystem then .ok (.error (.unreadable path e)) else .error e

def ofFile (fs : Files) (path : String) : Except FileError (Except SaveFileError State) :=
  ofReading path (fs.read (Path.normal path))

def toFile (s : State) (fs : Files) (path : String) : Except StoreError Files :=
  match s.encode with
  | .error e => .error (.unpackable e)
  | .ok bytes => (fs.write path bytes).mapError .unwritable

end State

end ChipEight
