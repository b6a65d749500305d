import ChipEight.Files.Tree
import ChipEight.Log

/-!
# The journal

* `Journal.line e`        an entry as a line of the file, but for the time stamp in front;
* `Sink ω`                takes a line, or refuses it;
* `Files.sink file`       the sink that appends to a file;
* `Journal.writeAll k w`  entries are written to the sink `k` in state `w`, in order;
* `Journal`               a log file, and the entries that could not be written to it yet;
* `Journal.emit`          the entries held back are tried again in order, then the new one.

An entry that the system refuses is held with the reason of its last attempt. Any other error breaks
the operation off: entries that were held stay held, and a new one is lost.
-/

namespace ChipEight

structure Held where
  entry : LogEntry
  why : FileError
  deriving DecidableEq, Repr

abbrev Sink (ω : Type) := ω → String → ω × Option FileError

def Files.sink (file : String) : Sink Files := fun fs line =>
  match fs.append file line.toUTF8.toList with
  | .ok fs => (fs, none)
  | .error why => (fs, some why)

structure Journal where
  file : String
  held : List Held

namespace Journal

variable {ω : Type}

def ofFile (file : String) : Journal := ⟨Path.normal file, []⟩

def line (e : LogEntry) : String := "[" ++ e.level.name ++ "] Chip8: " ++ e.text ++ "\n"

/-- what came of writing entries: those that were refused, and what broke it off -/
structure Attempt (ω : Type) where
  world : ω
  refused : List Held
  escape : Option FileError

def writeAll (k : Sink ω) (w : ω) : List LogEntry → Attempt ω
  | [] => ⟨w, [], none⟩
  | e :: es =>
    match k w (line e) with
    | (w, none) => writeAll k w es
    | (w, some why) =>
      if why.ofSystem then
        let rest := writeAll k w es
        { rest with refused := ⟨e, why⟩ :: rest.refused }
      else ⟨w, [], some why⟩

structure Emitted (ω : Type) where
  journal : Journal
  world : ω
  escape : Option FileError

/-- an emitted entry comes after those that are still held -/
def emitTo (j : Journal) (k : Sink ω) (w : ω) (e : LogEntry) : Emitted ω :=
  let old := writeAll k w (j.held.map (·.entry))
  match old.escape with
  | some why => ⟨j, old.world, some why⟩
  | none =>
    let new := writeAll k old.world [e]
    ⟨{ j with held := old.refused ++ new.refused }, new.world, new.escape⟩

def emit (j : Journal) (fs : Files) (e : LogEntry) : Emitted Files :=
  j.emitTo (Files.sink j.file) fs e

end Journal

end ChipEight
