import Rv32i.Rendering

/-!
# Running the command

A run reads its source, makes room for its output, assembles, and hands out the whole rendering or
nothing. All that lies outside of the assembler is a parameter. Files, standard input, the terminal
and the printer of symbol tables are reached through a host, and a reader of its own turns the
arguments of a run into a request.
-/

set_option autoImplicit false

namespace Rv32i.Command

open Text (ofString)

inductive FileOperation where
  | opening
  | reading
  deriving DecidableEq

inductive FileReason where
  | missing
  | isDirectory
  | notDirectory
  | invalidName
  | nameTooLong
  | other (description : Text)
  deriving DecidableEq

structure FileFault where
  operation : FileOperation
  path : Text
  reason : FileReason
  deriving DecidableEq

def FileOperation.text : FileOperation → Text
  | opening => ofString "open"
  | reading => ofString "read"

def FileReason.text : FileReason → Text
  | missing => ofString "no such file or directory"
  | isDirectory => ofString "is a directory"
  | notDirectory => ofString "not a directory"
  | invalidName => ofString "invalid argument"
  | nameTooLong => ofString "file name too long"
  | other description => description

def FileFault.message (f : FileFault) : Text :=
  f.operation.text ++ ofString " " ++ f.path ++ ofString ": " ++ f.reason.text

/-- Creating a file opens it for writing and empties it. Writing to a file that was opened is taken
to succeed. -/
structure Host (m : Type → Type) where
  Handle : Type
  outputIsTerminal : m Bool
  readInput : m (Except FileFault (List UInt8))
  readFile : Text → m (Except FileFault (List UInt8))
  createFile : Text → m (Except FileFault Handle)
  write : Handle → List UInt8 → m Unit
  dump : SymbolTable → m Text

structure Options where
  output : Text := []
  format : Text := Rendering.text.name
  annotate : Bool := false
  symbols : Bool := false
  deriving DecidableEq

inductive Request where
  | invalid (message : Text)
  | help (text : Text)
  | assemble (o : Options) (argument : Option Text)

inductive AssemblyFault where
  | rendering (fault : RenderingFault)
  | program (fault : LocatedFault)

def AssemblyFault.message : AssemblyFault → Text
  | rendering fault => fault.message
  | program fault => fault.diagnostic.message

inductive Failure where
  | usage (message : Text)
  | file (fault : FileFault)
  | terminal
  | assembly (source : Text) (fault : AssemblyFault)

def Failure.message : Failure → Text
  | usage message => message
  | file fault => fault.message
  | terminal => ofString "refusing to write binary output to a terminal, use -o"
  | assembly source fault => source ++ ofString ": " ++ fault.message

structure Outcome where
  status : Nat
  output : List UInt8
  errors : Text

def Outcome.conclude : Except Failure Outcome → Outcome
  | .ok outcome => outcome
  | .error failure => ⟨1, [], failure.message ++ [.scalar '\n']⟩

def assemble (o : Options) (source : List UInt8) :
    Except AssemblyFault (List UInt8 × SymbolTable) := do
  let rendering ← (Rendering.parse o.format).mapError .rendering
  let program ← (Program.ofSource (Text.ofBytes source)).mapError .program
  return (rendering.render o.annotate program.words, program.symbols)

def sourcePath? (argument : Option Text) : Option Text := argument.filter (· != ofString "-")

def sourceName (argument : Option Text) : Text := (sourcePath? argument).getD (ofString "<stdin>")

def Options.outputPath? (o : Options) : Option Text :=
  if o.output.isEmpty || o.output == ofString "-" then none else some o.output

section

variable {m : Type → Type} [Monad m]

def liftFile {α : Type} (action : m (Except FileFault α)) : ExceptT Failure m α :=
  ExceptT.mk do return (← action).mapError .file

def Host.readSource (host : Host m) (argument : Option Text) :
    m (Except FileFault (List UInt8)) :=
  match sourcePath? argument with
  | none => host.readInput
  | some path => host.readFile path

/-- Binary output is kept off a terminal, where only the plain spelling of its name is
recognized. -/
def Host.prepare (host : Host m) (o : Options) : ExceptT Failure m (Option host.Handle) := do
  match o.outputPath? with
  | some path => return some (← liftFile (host.createFile path))
  | none =>
    if o.format == Rendering.bin.name then
      if ← host.outputIsTerminal then throw .terminal
    return none

def Host.deliver (host : Host m) (handle : Option host.Handle) (bytes : List UInt8) :
    m (List UInt8) := do
  match handle with
  | none => return bytes
  | some handle =>
    host.write handle bytes
    return []

def Host.report (host : Host m) (o : Options) (symbols : SymbolTable) : m Text :=
  if o.symbols then host.dump symbols else pure []

def perform (host : Host m) (o : Options) (argument : Option Text) : ExceptT Failure m Outcome := do
  let source ← liftFile (host.readSource argument)
  let handle ← host.prepare o
  match assemble o source with
  | .error fault => throw (.assembly (sourceName argument) fault)
  | .ok (bytes, symbols) =>
    let output ← host.deliver handle bytes
    let errors ← host.report o symbols
    return ⟨0, output, errors⟩

def execute (host : Host m) (o : Options) (argument : Option Text) : m Outcome := do
  return .conclude (← (perform host o argument).run)

def run (read : List Text → Request) (host : Host m) (arguments : List Text) : m Outcome :=
  match read arguments with
  | .invalid message => return .conclude (.error (.usage message))
  | .help text => return ⟨0, text.toBytes, []⟩
  | .assemble o argument => execute host o argument

end

end Rv32i.Command
