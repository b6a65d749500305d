import ChipEight.Keyboard.Names
import ChipEight.Log
import ChipEight.Settings.Value

/-!
# Key bindings

* `Bindings`              which physical key stands for which key of the keypad, in the order in
  which they were bound;
* `Bindings.bind`         binds a key to a code; the earlier bindings of both are dropped;
* `Bindings.keyOf?`, `codeOf?`   looked up by either side;
* `Bindings.ofEntries`    the usual bindings, changed by the entries of a table one after another.

No key and no code is ever bound twice. An entry with a name that means no key is left out, with a
warning.
-/

namespace ChipEight

structure Bindings where
  pairs : List (Int × Key)
  deriving DecidableEq, Repr

namespace Bindings

/-- four rows of four keys, at the left of the keyboard -/
def usual : Bindings :=
  ⟨[(49, 0x1), (50, 0x2), (51, 0x3), (52, 0xC),
    (113, 0x4), (119, 0x5), (101, 0x6), (114, 0xD),
    (97, 0x7), (115, 0x8), (100, 0x9), (102, 0xE),
    (122, 0xA), (120, 0x0), (99, 0xB), (118, 0xF)].map fun (code, k) => (code, Key.ofNat k)⟩

def size (b : Bindings) : Nat := b.pairs.length

def keyOf? (b : Bindings) (code : Int) : Option Key :=
  (b.pairs.find? (·.1 == code)).map (·.2)

def codeOf? (b : Bindings) (k : Key) : Option Int :=
  (b.pairs.find? (·.2 == k)).map (·.1)

def bind (b : Bindings) (k : Key) (code : Int) : Bindings :=
  ⟨b.pairs.filter (fun p => p.1 != code && p.2 != k) ++ [(code, k)]⟩

theorem pairs_bind (b : Bindings) (k : Key) (code : Int) :
    (b.bind k code).pairs = b.pairs.filter (fun p => p.1 != code && p.2 != k) ++ [(code, k)] := rfl

/-- an entry that binds a key to something that is no name -/
inductive EntryError where
  | notName
  deriving DecidableEq, Repr

/-- the log takes it, as names and values are Unicode text -/
def warning (name : String) (v : Value) (e : Keyboard.NameError) : LogEntry :=
  .warning ("Invalid key binding '" ++ name ++ " = " ++ v.text ++ "' in config: " ++ e.message)

/-- one entry; a key that is not known is noticed before a value that is no name -/
def bindEntry (b : Bindings) (name : String) (v : Value) :
    Except EntryError Bindings × List LogEntry :=
  match Key.ofName name with
  | .error e => (.ok b, [warning name v e])
  | .ok k =>
    match v with
    | .str physical =>
      match Keyboard.physicalCode physical with
      | .ok code => (.ok (b.bind k code), [])
      | .error e => (.ok b, [warning name v e])
    | _ => (.error .notName, [])

def bindEntries (b : Bindings) : List (String × Value) → Except EntryError Bindings × List LogEntry
  | [] => (.ok b, [])
  | (name, v) :: rest =>
    match b.bindEntry name v with
    | (.ok b, log) =>
      let (r, later) := b.bindEntries rest
      (r, log ++ later)
    | (.error e, log) => (.error e, log)

def ofEntries (entries : List (String × Value)) : Except EntryError Bindings × List LogEntry :=
  usual.bindEntries entries

def description (b : Bindings) : String :=
  "<KeyMapping "
    ++ ", ".intercalate (b.pairs.map fun p => Keyboard.shownName p.1 ++ "->" ++ p.2.name)
    ++ ">"

end Bindings

end ChipEight
