import ChipEight.Decimal.FormatSpec
import ChipEight.Settings.Moment
import ChipEight.Text.Quoted

/-!
# Settings values

* `Value`             what a setting can hold; a table keeps the order of its keys;
* `Table`             the entries of a table;
* `Table.get?`, `set`, `erase`   look up, replace or add at the end, take out;
* `Value.kind`        the name of a value's kind;
* `Value.text`        a value as messages show it;
* `Value.truthy`      neither empty, nor zero, nor nothing;
* `Value.toFloat`     a number as a double.
-/

namespace ChipEight

inductive Value where
  | null
  | bool (b : Bool)
  | int (n : Int)
  | float (x : Float)
  | str (s : String)
  | list (xs : List Value)
  | table (entries : List (String × Value))
  | moment (m : Moment)
  deriving Inhabited

abbrev Table := List (String × Value)

namespace Table

def get? : Table → String → Option Value
  | [], _ => none
  | (k, v) :: rest, key => if k = key then some v else get? rest key

/-- a key that is there keeps its place -/
def set : Table → String → Value → Table
  | [], key, v => [(key, v)]
  | (k, w) :: rest, key, v => if k = key then (k, v) :: rest else (k, w) :: set rest key v

def erase (t : Table) (key : String) : Table := t.filter (·.1 != key)

/-- pairs in order; a key that comes again only changes its value -/
def ofPairs (pairs : List (String × Value)) : Table :=
  pairs.foldl (fun t p => t.set p.1 p.2) []

theorem get?_nil (key : String) : get? [] key = none := rfl
theorem get?_cons (k : String) (v : Value) (rest : Table) (key : String) :
    get? ((k, v) :: rest) key = if k = key then some v else get? rest key := rfl

theorem get?_set (t : Table) (key k : String) (v : Value) :
    (t.set key v).get? k = if key = k then some v else t.get? k := by
  induction t with
  | nil => rfl
  | cons p rest ih =>
    obtain ⟨k', w⟩ := p
    grind [set, get?_cons]

end Table

namespace Value

/-- dates and times are of three kinds, by what they hold -/
def kind : Value → String
  | null => "NoneType"
  | bool _ => "bool"
  | int _ => "int"
  | float _ => "float"
  | str _ => "str"
  | list _ => "list"
  | table _ => "dict"
  | moment (.date _) => "date"
  | moment (.time _) => "time"
  | moment (.at _ _ _) => "datetime"

mutual

/-- a value inside a list or a table, where strings are quoted -/
def inner : Value → String
  | null => "None"
  | bool b => if b then "True" else "False"
  | int n => toString n
  | float x => Decimal.shortestText x
  | str s => Text.quoted s
  | list xs => "[" ++ ", ".intercalate (innerList xs) ++ "]"
  | table es => "\x7b" ++ ", ".intercalate (innerTable es) ++ "\x7d"
  | moment m => m.text

def innerList : List Value → List String
  | [] => []
  | v :: vs => inner v :: innerList vs

def innerTable : List (String × Value) → List String
  | [] => []
  | (k, v) :: es => (Text.quoted k ++ ": " ++ inner v) :: innerTable es

end

def text : Value → String
  | str s => s
  | v => v.inner

def truthy : Value → Bool
  | null => false
  | bool b => b
  | int n => n != 0
  | float x => x != 0
  | str s => !s.isEmpty
  | list xs => !xs.isEmpty
  | table es => !es.isEmpty
  | moment _ => true

inductive NumberError where
  | notNumber
  | overflow
  | zero
  deriving DecidableEq, Repr

/-- a truth value counts as 0 or 1; an integer may be too large -/
def toFloat : Value → Except NumberError Float
  | bool b => .ok (if b then 1 else 0)
  | int n => match Decimal.ofInt? n with
    | some x => .ok x
    | none => .error .overflow
  | float x => .ok x
  | _ => .error .notNumber

end Value

end ChipEight
