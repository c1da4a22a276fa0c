import Rv32i.Instruction.Format
import Rv32i.Text.Blank
import Rv32i.Text.Quoted

/-!
# Faults of a source program

Each way in which a line can fail to assemble is a cause with the tokens or numbers that show it.
A cause has a kind, which programs tell apart, and a detail, which people read. The message of a
diagnostic puts kind and detail together with the place in the source.
-/

set_option autoImplicit false

namespace Rv32i

open Text (ofString)

inductive FaultKind where
  | syntaxError
  | unknownRegister
  | operandFormat
  | operandCount
  | immediateRange
  | misalignment
  | duplicateLabel
  | undefinedSymbol
  | unlisted (code : Int)
  deriving DecidableEq

namespace FaultKind

def ofCode : Int → FaultKind
  | 0 => syntaxError
  | 1 => unknownRegister
  | 2 => operandFormat
  | 3 => operandCount
  | 4 => immediateRange
  | 5 => misalignment
  | 6 => duplicateLabel
  | 7 => undefinedSymbol
  | code => unlisted code

def text : FaultKind → Text
  | syntaxError => ofString "syntax error"
  | unknownRegister => ofString "unknown register"
  | operandFormat => ofString "bad operand"
  | operandCount => ofString "wrong operand count"
  | immediateRange => ofString "immediate out of range"
  | misalignment => ofString "misaligned offset"
  | duplicateLabel => ofString "duplicate label"
  | undefinedSymbol => ofString "undefined symbol"
  | unlisted code => ofString "errno " ++ Numeral.signed code

end FaultKind

inductive Transfer where
  | branch
  | jump
  deriving DecidableEq

def Transfer.text : Transfer → Text
  | branch => ofString "branch"
  | jump => ofString "jump"

inductive Fault where
  | malformedLabel (label : Text)
  | unknownMnemonic (field : Text)
  | unsupportedFormat (mnemonic : Text) (format : Format)
  | unknownRegister (name : Text)
  | malformedImmediate (token : Text)
  | malformedMemory (token : Text)
  | offsetTooLarge (digits : Text)
  | operandCount (expected actual : Nat)
  | outOfRange (value low high : Int)
  | oddOffset (transfer : Transfer) (offset : Int)
  | duplicateLabel (label : Text) (line : Nat)
  | undefinedSymbol (token : Text)
  | undefinedTarget (token : Text)
  deriving DecidableEq

namespace Fault

def kind : Fault → FaultKind
  | malformedLabel _ => .syntaxError
  | unknownMnemonic _ => .syntaxError
  | unsupportedFormat _ _ => .syntaxError
  | unknownRegister _ => .unknownRegister
  | malformedImmediate _ => .operandFormat
  | malformedMemory _ => .operandFormat
  | offsetTooLarge _ => .operandFormat
  | operandCount _ _ => .operandCount
  | outOfRange _ _ _ => .immediateRange
  | oddOffset _ _ => .misalignment
  | duplicateLabel _ _ => .duplicateLabel
  | undefinedSymbol _ => .undefinedSymbol
  | undefinedTarget _ => .undefinedSymbol

def detail : Fault → Text
  | malformedLabel label => ofString "malformed label " ++ label.quoted
  | unknownMnemonic field => ofString "unknown mnemonic " ++ field.quoted
  | unsupportedFormat mnemonic format =>
    mnemonic ++ ofString ": unsupported format " ++ format.letter
  | unknownRegister name => name.quoted
  | malformedImmediate token => ofString "bad immediate " ++ token.quoted
  | malformedMemory token => ofString "expected offset(register), got " ++ token.quoted
  | offsetTooLarge digits => ofString "bad offset " ++ digits.quoted
  | operandCount expected actual =>
    ofString "expected " ++ Numeral.decimal expected ++ ofString " operands, got " ++
      Numeral.decimal actual
  | outOfRange value low high =>
    Numeral.signed value ++ ofString " not in [" ++ Numeral.signed low ++ ofString ", " ++
      Numeral.signed high ++ ofString "]"
  | oddOffset transfer offset =>
    transfer.text ++ ofString " offset " ++ Numeral.signed offset ++
      ofString " is not a multiple of 2"
  | duplicateLabel label line =>
    label.quoted ++ ofString " already defined on line " ++ Numeral.decimal line
  | undefinedSymbol token => token.quoted
  | undefinedTarget token => ofString "branch target " ++ token.quoted

end Fault

/-- What a person is told about a fault. Lines count from one; a line that is not positive and an
empty source are left out of the message. -/
structure Diagnostic where
  kind : FaultKind
  detail : Text
  line : Int
  source : Text
  deriving DecidableEq

def Diagnostic.message (d : Diagnostic) : Text :=
  (if 0 < d.line then ofString "line " ++ Numeral.signed d.line ++ ofString ": " else []) ++
  d.kind.text ++
  (if d.detail.isEmpty then [] else ofString ": " ++ d.detail) ++
  (if d.source.isEmpty then [] else ofString " (" ++ d.source ++ ofString ")")

/-- A fault and the line that shows it, counted from one and without blanks at its ends. -/
structure LocatedFault where
  fault : Fault
  line : Nat
  source : Text
  deriving DecidableEq

def Fault.locate (f : Fault) (line : Nat) (raw : Text) : LocatedFault := ⟨f, line, raw.trim⟩

def Fault.diagnostic (f : Fault) : Diagnostic := ⟨f.kind, f.detail, 0, []⟩

def LocatedFault.diagnostic (f : LocatedFault) : Diagnostic :=
  ⟨f.fault.kind, f.fault.detail, f.line, f.source⟩

end Rv32i
