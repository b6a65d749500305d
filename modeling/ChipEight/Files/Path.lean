/-!
# Paths

* `Path.parts s`      the names between the slashes;
* `Path.normal s`     the path with empty and `.` names left out; `.` if nothing is left;
* `Path.folder s`     the path ends with a slash, and so names a directory.

A leading slash stays, and so do exactly two of them; `..` stays where it is.
-/

namespace ChipEight.Path

/-- a list cut at every slash -/
def cut : List Char → List (List Char)
  | [] => [[]]
  | c :: cs =>
    if c = '/' then [] :: cut cs
    else match cut cs with
      | first :: rest => (c :: first) :: rest
      | [] => [[c]]

def parts (s : String) : List String :=
  ((cut s.toList).filter (!·.isEmpty)).map String.ofList

def root (s : String) : String :=
  match s.toList with
  | '/' :: '/' :: '/' :: _ => "/"
  | '/' :: '/' :: _ => "//"
  | '/' :: _ => "/"
  | _ => ""

def normal (s : String) : String :=
  let p := root s ++ "/".intercalate ((parts s).filter (· != "."))
  if p.isEmpty then "." else p

def folder (s : String) : Bool := s.toList.getLast? == some '/'

example : normal "./d/../s" = "d/../s" ∧ normal "" = "." := by decide +kernel

end ChipEight.Path
