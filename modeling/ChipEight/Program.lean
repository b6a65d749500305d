import ChipEight.Files.Tree
import ChipEight.Machine.Ram

/-!
# Programs

* `Program`                a program image that fits into memory, and the file it was read from;
* `Program.ofBytes`        the program in some bytes: anything but nothing, cut to what fits;
* `Program.ofReading`      the program in a file, by what reading the file gave; `ofFile` reads it;
* `Program.checkReading`   what is wrong with the file of a program, if anything; so `checkFile`.
-/

namespace ChipEight

structure Program where
  file : String
  image : List UInt8

inductive ProgramError where
  | notBytes (kind : String)
  | empty
  | unreadable (path : String) (why : FileError)
  deriving DecidableEq, Repr

def ProgramError.message : ProgramError → String
  | notBytes kind => "Expected bytes or bytearray, got " ++ kind
  | empty => "ROM is empty"
  | unreadable path why => "Failed to read file " ++ path ++ ": " ++ why.message path

namespace Program

/-- a result with what was logged on the way -/
abbrev Loaded := Except ProgramError Program × List LogEntry

def ofBytes (bytes : List UInt8) : Loaded :=
  if bytes.isEmpty then (.error .empty, [])
  else
    let extra := bytes.length - programRoom
    (.ok ⟨"", bytes.take programRoom⟩,
      if extra > 0 then
        [.warning ("Extra " ++ toString extra ++ " bytes at end of ROM ignored")]
      else [])

/-- a file is refused with a reason; a path with a zero character is no path at all -/
def ofReading (path : String) : Except FileError (List UInt8) → Except FileError Loaded
  | .ok bytes =>
    let (r, log) := ofBytes bytes
    .ok (r.map fun p => { p with file := path }, log)
  | .error e => if e.ofSystem then .ok (.error (.unreadable path e), []) else .error e

def ofFile (fs : Files) (path : String) : Except FileError Loaded := ofReading path (fs.read path)

def checkReading (path : String) :
    Except FileError (List UInt8) → Except FileError (Option String × List LogEntry)
  | .ok bytes =>
    match ofBytes bytes with
    | (.ok _, log) => .ok (none, log)
    | (.error e, log) => .ok (some e.message, log)
  | .error e =>
    if e.ofSystem then .ok (some ("Failed to read file: " ++ e.message path), []) else .error e

def checkFile (fs : Files) (path : String) : Except FileError (Option String × List LogEntry) :=
  checkReading path (fs.read path)

def description (p : Program) : String :=
  "<Rom file=" ++ Text.quoted p.file ++ " size=" ++ toString p.image.length ++ " bytes>"

end Program

end ChipEight
