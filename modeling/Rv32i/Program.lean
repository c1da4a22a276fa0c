import Rv32i.Disassembly
import Rv32i.Source.Line

/-!
# Programs

A program is assembled in two passes over its lines. The survey gives each label the address of
the first instruction at or after it. The emission encodes each instruction at its address under
the table of all labels. The first fault of the survey, and failing that the first fault of the
emission, ends the run.
-/

set_option autoImplicit false

namespace Rv32i

structure PlacedWord where
  address : Address
  value : Word
  deriving DecidableEq

structure Definition where
  name : Text
  line : Nat
  address : Address
  deriving DecidableEq

/-- What the first pass knows after some lines; the definition read last comes first. -/
structure Survey where
  line : Nat := 0
  pc : Address := 0
  definitions : List Definition := []

namespace Survey

def define (s : Survey) (label : Option Text) : Except Fault (List Definition) :=
  match label with
  | none => .ok s.definitions
  | some name =>
    match s.definitions.find? (·.name == name) with
    | some earlier => .error (.duplicateLabel name earlier.line)
    | none => .ok (⟨name, s.line + 1, s.pc⟩ :: s.definitions)

def step (s : Survey) (raw : Text) : Except Fault Survey := do
  let statement ← Statement.ofLine raw
  let definitions ← s.define statement.label
  return ⟨s.line + 1, if statement.body.isEmpty then s.pc else s.pc + wordSize, definitions⟩

def read (s : Survey) (raw : Text) : Except LocatedFault Survey :=
  (s.step raw).mapError (·.locate (s.line + 1) raw)

def symbols (s : Survey) : SymbolTable :=
  s.definitions.foldr (fun d t => t.insert d.name d.address) .empty

end Survey

/-- What the second pass has produced after some lines; the word emitted last comes first. -/
structure Emission where
  line : Nat := 0
  pc : Address := 0
  words : List PlacedWord := []

namespace Emission

def step (symbols : SymbolTable) (e : Emission) (raw : Text) : Except Fault Emission := do
  let line ← Line.parse raw
  match line.instruction with
  | none => return { e with line := e.line + 1 }
  | some instruction =>
    let value ← instruction.descriptor.encode instruction.operands e.pc symbols
    return ⟨e.line + 1, e.pc + wordSize, ⟨e.pc, value⟩ :: e.words⟩

def read (symbols : SymbolTable) (e : Emission) (raw : Text) : Except LocatedFault Emission :=
  (e.step symbols raw).mapError (·.locate (e.line + 1) raw)

end Emission

structure Program where
  words : List PlacedWord
  symbols : SymbolTable

namespace Program

def survey (lines : List Text) : Except LocatedFault Survey := lines.foldlM Survey.read {}

def emit (symbols : SymbolTable) (lines : List Text) : Except LocatedFault Emission :=
  lines.foldlM (Emission.read symbols) {}

def assemble (lines : List Text) : Except LocatedFault Program := do
  let survey ← survey lines
  let emission ← emit survey.symbols lines
  return ⟨emission.words.reverse, survey.symbols⟩

def ofSource (source : Text) : Except LocatedFault Program := assemble source.lines

def disassembly (p : Program) : List Text := p.words.map fun w => w.value.disassemble w.address

end Program

end Rv32i
