import Rv32i.Command.Arguments

/-!
# Files in memory

A host that keeps its files in memory, each by the names that lead to it from the root. Paths are
followed name by name, from the root or from the directory in which a run takes place. The null
device is empty to read and swallows what is written.
-/

set_option autoImplicit false

namespace Rv32i.Command

open Text (ofString)

structure Path where
  absolute : Bool
  names : List Text
  slashed : Bool

/-- A path with a zero byte in it is refused, an empty one, and one of 4096 bytes. -/
def Path.parse (t : Text) : Except FileReason Path :=
  if t.contains (.scalar (Char.ofNat 0)) then .error .invalidName
  else if t.isEmpty then .error .missing
  else if t.toBytes.length > 4095 then .error .nameTooLong
  else .ok {
    absolute := t.head? == some (.scalar '/')
    names := (t.splitOn (.scalar '/')).filter (!·.isEmpty)
    slashed := t.getLast? == some (.scalar '/') }

abbrev Location := List Text

namespace Location

def null : Location := ["dev", "null"].map ofString

/-- The root is above itself, so climbing far enough always ends there. -/
def step (l : Location) (name : Text) : Except FileReason Location :=
  if name == ofString "." then .ok l
  else if name == ofString ".." then .ok l.dropLast
  else if name.toBytes.length > 255 then .error .nameTooLong
  else .ok (l ++ [name])

end Location

structure FileTree where
  here : Location
  directories : List Location
  files : List (Location × List UInt8)

inductive Entry where
  | directory
  | device
  | file (contents : List UInt8)
  | free

namespace FileTree

def contents? (t : FileTree) (l : Location) : Option (List UInt8) := t.files.lookup l

def put (t : FileTree) (l : Location) (contents : List UInt8) : FileTree :=
  { t with files := (l, contents) :: t.files.filter (·.1 != l) }

def entry (t : FileTree) (l : Location) : Entry :=
  if l ∈ t.directories then .directory
  else if l = Location.null then .device
  else
    match t.contents? l with
    | some contents => .file contents
    | none => .free

def descend (t : FileTree) (l : Location) : List Text → Except FileReason Location
  | [] => .ok l
  | name :: rest => do
    let next ← l.step name
    match t.entry next with
    | .directory => t.descend next rest
    | .device | .file _ => throw .notDirectory
    | .free => throw .missing

def parent (t : FileTree) (path : Path) : Except FileReason Location :=
  t.descend (if path.absolute then [] else t.here) path.names.dropLast

def locate (t : FileTree) (path : Path) : Except FileReason Location := do
  let directory ← t.parent path
  match path.names.getLast? with
  | none => return directory
  | some name => directory.step name

/-- A slash at the end asks for a directory. -/
def read (t : FileTree) (text : Text) : Except FileFault (List UInt8) :=
  let found : Except FileReason (Bool × Location) := do
    let path ← Path.parse text
    return (path.slashed, ← t.locate path)
  match found with
  | .error reason => .error ⟨.opening, text, reason⟩
  | .ok (slashed, l) =>
    match t.entry l with
    | .directory => .error ⟨.reading, text, .isDirectory⟩
    | .free => .error ⟨.opening, text, .missing⟩
    | .device => if slashed then .error ⟨.opening, text, .notDirectory⟩ else .ok []
    | .file contents => if slashed then .error ⟨.opening, text, .notDirectory⟩ else .ok contents

/-- The place at which a path would have a file. A slash at the end settles that it cannot, before
the last name is looked at. -/
def place (t : FileTree) (path : Path) : Except FileReason Location := do
  let directory ← t.parent path
  match path.names.getLast? with
  | none => throw .isDirectory
  | some name =>
    if path.slashed then throw .isDirectory
    let l ← directory.step name
    match t.entry l with
    | .directory => throw .isDirectory
    | .device | .file _ | .free => return l

def target (t : FileTree) (text : Text) : Except FileFault Location :=
  (Path.parse text >>= t.place).mapError (⟨.opening, text, ·⟩)

def write (t : FileTree) (l : Location) (contents : List UInt8) : FileTree :=
  if l = Location.null then t else t.put l contents

end FileTree

def dumpEntry (e : Text × Address) : Text :=
  ofString " (string) (len=" ++ Numeral.decimal e.1.toBytes.length ++ ofString ") " ++
    e.1.quoted ++ ofString ": (uint32) " ++ Numeral.decimal e.2.toNat

/-- One printer of symbol tables, in the order of the names. -/
def dumpTable (s : SymbolTable) : Text :=
  let sorted := s.entries.mergeSort fun a b => Text.le a.1 b.1
  ofString "(rv_as.SymbolTable) " ++
  (if sorted.isEmpty then [] else
    ofString "(len=" ++ Numeral.decimal sorted.length ++ ofString ") ") ++
  ofString "\x7b\n" ++
  (ofString ",\n").intercalate (sorted.map dumpEntry) ++
  (if sorted.isEmpty then [] else ofString "\n") ++
  ofString "\x7d\n"

namespace FileTree

def host (terminal : Bool) (input : List UInt8) : Host (StateM FileTree) where
  Handle := Location
  outputIsTerminal := return terminal
  readInput := return .ok input
  readFile path := do return (← get).read path
  createFile path := do
    match (← get).target path with
    | .error fault => return .error fault
    | .ok l =>
      modify (·.write l [])
      return .ok l
  write l bytes := modify (·.write l bytes)
  dump symbols := return dumpTable symbols

def systemDirectories : List Location :=
  [] :: ["bin", "boot", "dev", "etc", "home", "lib", "media", "mnt", "opt", "proc", "root", "run",
    "sbin", "srv", "sys", "tmp", "usr", "var"].map fun name => [ofString name]

def workplace : Location := ["tmp", "run-000001"].map ofString

def ofFiles (files : List (Text × List UInt8)) : FileTree where
  here := workplace
  directories := workplace :: systemDirectories
  files := files.map fun (name, contents) => (workplace ++ [name], contents)

def changesSince (now before : FileTree) : List (Text × List UInt8) :=
  now.files.filterMap fun (l, contents) =>
    if l.dropLast == now.here && before.contents? l != some contents then
      l.getLast?.map fun name => (name, contents)
    else none

end FileTree

def runIn (t : FileTree) (input : List UInt8) (arguments : List Text) : Outcome × FileTree :=
  (run Request.read (FileTree.host false input) arguments).run t

end Rv32i.Command
