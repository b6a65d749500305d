import ChipEight.Files.Path
import ChipEight.Text.Quoted

/-!
# The file tree

* `Place`               where a file lies: names from the working directory on, `..` in front for
  a directory above it;
* `Files`               the files and directories there are;
* `FileError`           why a path could not be opened, or a file not be read or written;
* `Reader`              what is handed out for each path;
* `Files.locate`        the place that a path leads to;
* `Files.read`, `write`, `append`   the contents of a file;
* `Files.makeFolder`, `remove`, `move`   changes from outside.

Paths are walked name by name, so `x/..` needs the directory `x`. The working directory and those
above it are always there.
-/

namespace ChipEight

abbrev Place := List String

inductive Node where
  | file (bytes : List UInt8)
  | folder

structure Files where
  nodes : List (Place × Node)

inductive FileError where
  | missing
  | notFolder
  | isFolder
  | nameTooLong
  | embeddedNul
  /-- links that lead in a circle; the tree has none -/
  | looped
  /-- anything else that the system refuses, in its own words; the tree never does -/
  | refused (text : String)
  deriving DecidableEq, Repr

/-- the wording, for the path as it was given -/
def FileError.message (path : String) : FileError → String
  | missing => "[Errno 2] No such file or directory: " ++ Text.quoted path
  | notFolder => "[Errno 20] Not a directory: " ++ Text.quoted path
  | isFolder => "[Errno 21] Is a directory: " ++ Text.quoted path
  | nameTooLong => "[Errno 36] File name too long: " ++ Text.quoted path
  | embeddedNul => "embedded null byte"
  | looped => "[Errno 40] Too many levels of symbolic links: " ++ Text.quoted path
  | refused text => text

/-- the system refused the path; a zero character never reaches it -/
def FileError.ofSystem : FileError → Bool
  | embeddedNul => false
  | _ => true

abbrev Reader := String → Except FileError (List UInt8)

namespace Files

def empty : Files := ⟨[]⟩

/-- the working directory, or one above it -/
def above (p : Place) : Bool := p.all (· == "..")

def node? (fs : Files) (p : Place) : Option Node :=
  if above p then some .folder else fs.nodes.lookup p

def parent (p : Place) : Place := if above p then ".." :: p else p.dropLast

def follow (fs : Files) (p : Place) (name : String) : Except FileError Place :=
  match fs.node? p with
  | some .folder =>
    if name = "." then .ok p
    else if name = ".." then .ok (parent p)
    else if name.utf8ByteSize > 255 then .error .nameTooLong
    else .ok (p ++ [name])
  | some (.file _) => .error .notFolder
  | none => .error .missing

/-- the place that a path leads to; only its last name may be missing there -/
def locate (fs : Files) (path : String) : Except FileError Place :=
  if path.toList.contains '\x00' then .error .embeddedNul
  else if path.isEmpty then .error .missing
  else if path.utf8ByteSize ≥ 4096 then .error .nameTooLong
  else (Path.parts path).foldlM fs.follow (if Path.root path = "" then [] else [".."])

def exists? (fs : Files) (path : String) : Except FileError Bool := do
  let p ← fs.locate path
  match fs.node? p with
  | some (.file _) => if Path.folder path then throw .notFolder else return true
  | some .folder => return true
  | none => return false

def read (fs : Files) (path : String) : Except FileError (List UInt8) := do
  let p ← fs.locate path
  match fs.node? p with
  | some (.file bytes) => if Path.folder path then throw .notFolder else return bytes
  | some .folder => throw .isFolder
  | none => throw .missing

def put (fs : Files) (p : Place) (n : Node) : Files :=
  ⟨fs.nodes.filter (·.1 != p) ++ [(p, n)]⟩

/-- the file at `path` gets the contents that `f` makes of its present ones -/
def change (fs : Files) (path : String) (f : List UInt8 → List UInt8) :
    Except FileError Files := do
  let p ← fs.locate path
  match fs.node? p with
  | some (.file bytes) =>
    if Path.folder path then throw .notFolder else return fs.put p (.file (f bytes))
  | some .folder => throw .isFolder
  | none =>
    if Path.folder path then throw .isFolder
    match fs.node? (parent p) with
    | some .folder => return fs.put p (.file (f []))
    | some (.file _) => throw .notFolder
    | none => throw .missing

def write (fs : Files) (path : String) (bytes : List UInt8) : Except FileError Files :=
  fs.change path fun _ => bytes

def append (fs : Files) (path : String) (bytes : List UInt8) : Except FileError Files :=
  fs.change path (· ++ bytes)

/-! ## changes from outside -/

def makePlace (fs : Files) (p : Place) : Files :=
  ((List.range (p.length + 1)).map p.take).foldl
    (fun fs q => if (fs.node? q).isSome then fs else fs.put q .folder) fs

/-- the names of a path that stays inside the tree -/
def placeOf (path : String) : Place :=
  (Path.parts path).foldl (fun p name =>
    if name = "." then p else if name = ".." then parent p else p ++ [name]) []

def makeFolder (fs : Files) (path : String) : Files := fs.makePlace (placeOf path)

def addFile (fs : Files) (path : String) (bytes : List UInt8) : Files :=
  let p := placeOf path
  (fs.makePlace (parent p)).put p (.file bytes)

/-- a place with all below it goes away -/
def remove (fs : Files) (path : String) : Files :=
  let p := placeOf path
  ⟨fs.nodes.filter fun e => !p.isPrefixOf e.1⟩

/-- a place with all below it gets another name -/
def move (fs : Files) (path newPath : String) : Files :=
  let p := placeOf path
  let q := placeOf newPath
  let kept := fs.nodes.filter fun e => p.isPrefixOf e.1 || !q.isPrefixOf e.1
  ⟨kept.map fun e => if p.isPrefixOf e.1 then (q ++ e.1.drop p.length, e.2) else e⟩

end Files

end ChipEight
