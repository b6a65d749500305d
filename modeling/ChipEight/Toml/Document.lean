import ChipEight.Toml.Scalar

/-!
# TOML documents

* `readKey`, `readValue`    keys and values, at the front of a list of characters;
* `Marks`                   which names of a document may not be opened or added to again;
* `Draft`                   a document as far as it was read: its table, its marks, and the header
  that is in force;
* `Draft.assign`, `openTable`, `openElement`   what the three kinds of lines do;
* `parse text`              the table that a document describes, or what is wrong with it.

A table is opened once; a dotted key does not reach into a table with a header of its own; what is
written in braces or brackets is complete.
-/

namespace ChipEight.Toml

abbrev Name := List String

/-! ## comments -/

/-- what follows a comment, or the same characters without one; a newline stays -/
def skipComment : List Char → Except TomlError (List Char)
  | '#' :: rest =>
    if (rest.takeWhile (· != '\n')).any isIllegal then fail
    else .ok (rest.dropWhile (· != '\n'))
  | cs => .ok cs

/-- what follows blanks, newlines and comments, of which there are at most `n` -/
def skipFiller : Nat → List Char → Except TomlError (List Char)
  | 0, cs => .ok cs
  | n + 1, cs =>
    match cs.dropWhile isSpaceOrNewline with
    | '#' :: rest => do skipFiller n (← skipComment ('#' :: rest))
    | cs => .ok cs

/-! ## keys -/

def readKeyPart (cs : List Char) : Except TomlError (Front String) :=
  match cs with
  | '"' :: rest => (readBasic false .text rest).map fun (s, rest) => (String.ofList s, rest)
  | '\'' :: rest => (readLiteral rest).map fun (s, rest) => (String.ofList s, rest)
  | _ =>
    let s := cs.takeWhile isBare
    if s.isEmpty then fail else .ok (String.ofList s, cs.dropWhile isBare)

/-- the names of a key of at most `n` names, and what follows the blanks behind it -/
def readNames : Nat → List Char → Except TomlError (Front Name)
  | 0, _ => fail
  | n + 1, cs => do
    let (part, rest) ← readKeyPart cs
    match skipSpaces rest with
    | '.' :: rest => do
      let (parts, rest) ← readNames n (skipSpaces rest)
      return (part :: parts, rest)
    | rest => return ([part], rest)

def readKey (cs : List Char) : Except TomlError (Front Name) := readNames cs.length cs

/-! ## tables -/

/-- the table at `name` is changed by `f`, and made if it is missing; with `last`, a list on the
way stands for its last element -/
def changeAt (last : Bool) : Name → (Table → Option Table) → Table → Option Table
  | [], f, t => f t
  | k :: ks, f, t =>
    match t.get? k with
    | none => (changeAt last ks f []).map fun u => t.set k (.table u)
    | some (.table u) => (changeAt last ks f u).map fun u => t.set k (.table u)
    | some (.list xs) =>
      match last, xs.getLast? with
      | true, some (.table u) =>
        (changeAt last ks f u).map fun u => t.set k (.list (xs.dropLast ++ [.table u]))
      | _, _ => none
    | some _ => none

def addNew (key : String) (v : Value) (t : Table) : Option Table :=
  if (t.get? key).isSome then none else some (t.set key v)

def addElement (key : String) (t : Table) : Option Table :=
  match t.get? key with
  | none => some (t.set key (.list [.table []]))
  | some (.list xs) => some (t.set key (.list (xs ++ [.table []])))
  | some _ => none

def orFail {α : Type} : Option α → Except TomlError α
  | some a => .ok a
  | none => fail

/-- the value is a list or a table, and so is complete as it was written -/
def isCompound : Value → Bool
  | .list _ => true
  | .table _ => true
  | _ => false

def splitLast : Name → Option (Name × String)
  | [] => none
  | [k] => some ([], k)
  | k :: ks => (splitLast ks).map fun (init, last) => (k :: init, last)

/-! ## values -/

def readPlain (cs : List Char) : Except TomlError (Front Value) :=
  match cs with
  | 't' :: 'r' :: 'u' :: 'e' :: rest => .ok (.bool true, rest)
  | 'f' :: 'a' :: 'l' :: 's' :: 'e' :: rest => .ok (.bool false, rest)
  | _ =>
    match readMoment? cs with
    | some r => r
    | none =>
      match readNumber? cs with
      | some r => r
      | none => orFail (readSpecial? cs)

/-- a table in braces so far, and the names in it that are complete -/
structure Braces where
  table : Table
  complete : List Name

def Braces.add (b : Braces) (key : Name) (v : Value) : Except TomlError Braces := do
  let (parents, last) ← orFail (splitLast key)
  if b.complete.any (·.isPrefixOf key) then fail
  else
    let table ← orFail (changeAt false parents (addNew last v) b.table)
    return ⟨table, if isCompound v then key :: b.complete else b.complete⟩

mutual

/-- a value; values stand inside each other at most `n` deep -/
def readValue : Nat → List Char → Except TomlError (Front Value)
  | 0, _ => fail
  | n + 1, cs =>
    match readString? cs with
    | some r => r.map fun (s, rest) => (.str s, rest)
    | none =>
      match cs with
      | '[' :: rest => readElements n [] rest
      | '\x7b' :: rest =>
        match skipSpaces rest with
        | '\x7d' :: rest => .ok (.table [], rest)
        | rest => readEntries n ⟨[], []⟩ rest
      | _ => readPlain cs

def readElements : Nat → List Value → List Char → Except TomlError (Front Value)
  | 0, _, _ => fail
  | n + 1, found, cs => do
    match ← skipFiller cs.length cs with
    | ']' :: rest => return (.list found.reverse, rest)
    | cs =>
      let (v, rest) ← readValue n cs
      match ← skipFiller rest.length rest with
      | ']' :: rest => return (.list (v :: found).reverse, rest)
      | ',' :: rest => readElements n (v :: found) rest
      | _ => fail

/-- the rest of a table behind its opening brace or a comma -/
def readEntries : Nat → Braces → List Char → Except TomlError (Front Value)
  | 0, _, _ => fail
  | n + 1, b, cs => do
    match ← readKey cs with
    | (key, '=' :: rest) =>
      let (v, rest) ← readValue n (skipSpaces rest)
      let b ← b.add key v
      match skipSpaces rest with
      | '\x7d' :: rest => return (.table b.table, rest)
      | ',' :: rest => readEntries n b (skipSpaces rest)
      | _ => fail
    | _ => fail

end

/-! ## documents -/

structure Marks where
  /-- tables with a header of their own -/
  opened : List Name
  /-- names that were written as complete values -/
  complete : List Name
  /-- names that dotted keys went through since the last header -/
  passed : List Name

namespace Marks

def isOpened (m : Marks) (n : Name) : Bool := m.opened.contains n

def isComplete (m : Marks) (n : Name) : Bool := m.complete.any (·.isPrefixOf n)

/-- at a new header, names that dotted keys went through count as opened -/
def settle (m : Marks) : Marks := ⟨m.passed ++ m.opened, m.complete, []⟩

/-- all marks at a name and below it go away -/
def clear (m : Marks) (n : Name) : Marks :=
  { m with
    opened := m.opened.filter (!n.isPrefixOf ·)
    complete := m.complete.filter (!n.isPrefixOf ·) }

def openName (m : Marks) (n : Name) : Marks := { m with opened := n :: m.opened }

end Marks

structure Draft where
  table : Table
  marks : Marks
  header : Name

namespace Draft

def empty : Draft := ⟨[], ⟨[], [], []⟩, []⟩

def openTable (d : Draft) (name : Name) : Except TomlError Draft :=
  let marks := d.marks.settle
  if marks.isOpened name || marks.isComplete name then fail
  else do
    let table ← orFail (changeAt true name some d.table)
    return ⟨table, marks.openName name, name⟩

def openElement (d : Draft) (name : Name) : Except TomlError Draft := do
  let marks := d.marks.settle
  let (parents, last) ← orFail (splitLast name)
  if marks.isComplete name then fail
  else
    let table ← orFail (changeAt true parents (addElement last) d.table)
    return ⟨table, (marks.clear name).openName name, name⟩

def passes (d : Draft) (key : Name) : List Name :=
  (List.range (key.length - 1)).map fun k => d.header ++ key.take (k + 1)

def assign (d : Draft) (key : Name) (v : Value) : Except TomlError Draft := do
  let (parents, last) ← orFail (splitLast key)
  if (d.passes key).any d.marks.isOpened || d.marks.isComplete (d.header ++ parents) then fail
  else
    let table ← orFail (changeAt true (d.header ++ parents) (addNew last v) d.table)
    let name := d.header ++ key
    return { d with
      table
      marks := { d.marks with
        passed := d.passes key ++ d.marks.passed
        complete := if isCompound v then name :: d.marks.complete else d.marks.complete } }

def readLine (d : Draft) (cs : List Char) : Except TomlError (Draft × List Char) :=
  match cs with
  | '[' :: '[' :: rest => do
    match ← readKey (skipSpaces rest) with
    | (name, ']' :: ']' :: rest) => return (← d.openElement name, rest)
    | _ => fail
  | '[' :: rest => do
    match ← readKey (skipSpaces rest) with
    | (name, ']' :: rest) => return (← d.openTable name, rest)
    | _ => fail
  | '#' :: _ => .ok (d, cs)
  | _ => do
    match ← readKey cs with
    | (key, '=' :: rest) =>
      let (v, rest) ← readValue (2 * rest.length + 2) (skipSpaces rest)
      return (← d.assign key v, rest)
    | _ => fail

/-- the rest of a document of at most `n` lines -/
def readLines : Nat → Draft → List Char → Except TomlError Draft
  | 0, d, _ => .ok d
  | n + 1, d, cs =>
    match skipSpaces cs with
    | [] => .ok d
    | '\n' :: rest => readLines n d rest
    | cs => do
      let (d, rest) ← d.readLine cs
      match ← skipComment (skipSpaces rest) with
      | [] => return d
      | '\n' :: rest => readLines n d rest
      | _ => fail

end Draft

/-- a carriage return in front of a newline does not count -/
def joinLineEnds : List Char → List Char
  | '\r' :: '\n' :: rest => '\n' :: joinLineEnds rest
  | c :: rest => c :: joinLineEnds rest
  | [] => []

def parse (text : String) : Except TomlError Table :=
  let cs := joinLineEnds text.toList
  (Draft.readLines (cs.length + 1) .empty cs).map (·.table)

end ChipEight.Toml
