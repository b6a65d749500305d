import ChipEight.Keyboard.Bindings

/-!
# Bindings kept from both sides

* `Dict`                keys with their values, in the order in which the keys were first set;
* `Dict.delete`         takes a key out, which has to be there;
* `TwoWay`              bindings in two dictionaries: the key of each code, the code of each key;
* `TwoWay.bind`         binds a key to a code; what either was bound to is taken out of both;
* `TwoWay.usual`        the usual bindings;
* `TwoWay.ofEntries`    those, changed by the entries of a table one after another.

Each dictionary is changed on its own, and nothing but these operations keeps the two alike.
-/

namespace ChipEight

/-! ## dictionaries -/

abbrev Dict (α β : Type) := List (α × β)

namespace Dict

/-- a key that is to be taken out is not there -/
inductive Failure where
  | missing
  deriving DecidableEq, Repr

variable {α β : Type} [DecidableEq α]

def get? (d : Dict α β) (a : α) : Option β := (d.find? (·.1 == a)).map (·.2)

def without (d : Dict α β) (a : α) : Dict α β := d.filter (·.1 != a)

def delete (d : Dict α β) (a : α) : Except Failure (Dict α β) :=
  if (d.get? a).isSome then .ok (d.without a) else .error .missing

/-- a key that is there keeps its place -/
def set (d : Dict α β) (a : α) (b : β) : Dict α β :=
  if (d.get? a).isSome then d.map fun p => if p.1 = a then (a, b) else p else d ++ [(a, b)]

/-- each value with its key; of keys with one value the last is kept -/
def swapped [DecidableEq β] (d : Dict α β) : Dict β α := d.foldl (fun e p => e.set p.2 p.1) []

end Dict

/-! ## two of them -/

structure TwoWay where
  forward : Dict Int Key
  reverse : Dict Key Int
  deriving DecidableEq, Repr

namespace TwoWay

def size (t : TwoWay) : Nat := t.forward.length

def keyOf? (t : TwoWay) (code : Int) : Option Key := t.forward.get? code

def codeOf? (t : TwoWay) (k : Key) : Option Int := t.reverse.get? k

def usual : TwoWay := ⟨Bindings.usual.pairs, Dict.swapped Bindings.usual.pairs⟩

/-- a key is taken out of `d`, and what it stood for out of `e` -/
def unlink {α β : Type} [DecidableEq α] [DecidableEq β] (d : Dict α β) (e : Dict β α) (a : α) :
    Except Dict.Failure (Dict α β × Dict β α) :=
  match d.get? a with
  | none => .ok (d, e)
  | some b => (e.delete b).map fun e => (d.without a, e)

def bind (t : TwoWay) (k : Key) (code : Int) : Except Dict.Failure TwoWay := do
  let (reverse, forward) ← unlink t.reverse t.forward k
  let (forward, reverse) ← unlink forward reverse code
  return ⟨forward.set code k, reverse.set k code⟩

/-! ## entries -/

inductive Failure where
  | missing
  | entry (e : Bindings.EntryError)
  deriving DecidableEq, Repr

/-- what an entry asks for: that a key be bound to a code, or no more than a warning -/
def demand (name : String) (v : Value) :
    Except Bindings.EntryError (Except LogEntry (Key × Int)) :=
  match Key.ofName name with
  | .error e => .ok (.error (Bindings.warning name v e))
  | .ok k =>
    match v with
    | .str physical =>
      match Keyboard.physicalCode physical with
      | .ok code => .ok (.ok (k, code))
      | .error e => .ok (.error (Bindings.warning name v e))
    | _ => .error .notName

def bindEntry (t : TwoWay) (name : String) (v : Value) : Except Failure TwoWay × List LogEntry :=
  match demand name v with
  | .error e => (.error (.entry e), [])
  | .ok (.error warning) => (.ok t, [warning])
  | .ok (.ok (k, code)) => ((t.bind k code).mapError fun _ => .missing, [])

def bindEntries (t : TwoWay) : List (String × Value) → Except Failure TwoWay × List LogEntry
  | [] => (.ok t, [])
  | (name, v) :: rest =>
    match t.bindEntry name v with
    | (.ok t, log) =>
      let (r, later) := t.bindEntries rest
      (r, log ++ later)
    | (.error e, log) => (.error e, log)

def ofEntries (entries : List (String × Value)) : Except Failure TwoWay × List LogEntry :=
  usual.bindEntries entries

def description (t : TwoWay) : String := Bindings.description ⟨t.forward⟩

/-- bindings from both sides -/
def ofBindings (b : Bindings) : TwoWay := ⟨b.pairs, b.pairs.map Prod.swap⟩

end TwoWay

end ChipEight
