import Rv32i.Instruction.Table
import Rv32i.Fault

/-!
# Statements and lines

A source line without its comment is an optional label and a body. Only the first field of a line
can hold a label, and the label ends at the first colon. The body is an optional instruction: a
mnemonic from the table and operands set apart by commas. Blanks between the parts do not matter.
-/

set_option autoImplicit false

namespace Rv32i

def Text.withoutComment (t : Text) : Text := Text.trim (t.takeWhile (· != .scalar '#'))

structure Statement where
  label : Option Text
  body : Text
  deriving DecidableEq

namespace Statement

def isLabelGlyph : Glyph → Bool
  | .scalar c =>
    ('a' ≤ c && c ≤ 'z') || ('A' ≤ c && c ≤ 'Z') || ('0' ≤ c && c ≤ '9') || c == '_'
  | .stray _ => false

def isLabel (t : Text) : Bool := !t.isEmpty && t.all isLabelGlyph

def hasColon (field : Text) : Bool := field.contains (.scalar ':')

/-- Takes the label off a text whose ends are not blank. -/
def split (t : Text) : Except Fault Statement :=
  if t.fields.head?.any hasColon then
    let label := t.takeWhile (· != .scalar ':')
    let rest := (t.dropWhile (· != .scalar ':')).drop 1
    if isLabel label then .ok ⟨some label, Text.trim rest⟩ else .error (.malformedLabel label)
  else .ok ⟨none, t⟩

def ofLine (raw : Text) : Except Fault Statement := split raw.withoutComment

end Statement

structure Instruction where
  descriptor : Descriptor
  operands : List Text
  deriving DecidableEq

namespace Instruction

/-- The operands in the fields after the mnemonic. Runs of blanks inside one become one space, and
no text at all means no operand. -/
def operandsOf (fields : List Text) : List Text :=
  let joined : Text := [.scalar ' '].intercalate fields
  if joined.isEmpty then [] else (joined.splitOn (.scalar ',')).map Text.trim

def parse (body : Text) : Except Fault (Option Instruction) :=
  match body.fields with
  | [] => .ok none
  | mnemonic :: rest =>
    match Descriptor.find? mnemonic with
    | some d => .ok (some ⟨d, operandsOf rest⟩)
    | none => .error (.unknownMnemonic mnemonic)

end Instruction

structure Line where
  label : Option Text
  instruction : Option Instruction
  deriving DecidableEq

def Line.parse (raw : Text) : Except Fault Line := do
  let statement ← Statement.ofLine raw
  let instruction ← Instruction.parse statement.body
  return ⟨statement.label, instruction⟩

end Rv32i
