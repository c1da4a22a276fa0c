import Rv32i.Encoding
import Rv32i.Word.Fields

/-!
# Disassembly

A word is written as the source line that assembles to it. Branch and jump targets are written as
offsets, with the address they lead to in a comment. A word that no mnemonic encodes is shown as
data.
-/

set_option autoImplicit false

namespace Rv32i

open Text (ofString)

namespace Descriptor

def describes (d : Descriptor) (f : Fields) : Bool :=
  let sameFunct3 := d.funct3 == f.funct3.setWidth 8
  let sameFunct7 := d.funct7 == f.funct7.setWidth 8
  d.fixed.isNone && d.opcode == f.opcode.setWidth 8 &&
    match f.format with
    | .u | .j => true
    | .r => sameFunct3 && sameFunct7
    | .i => sameFunct3 && (!f.isShift || sameFunct7)
    | _ => sameFunct3

end Descriptor

namespace Fields

def writeImmediate (f : Fields) : Text := Numeral.signed f.immediate

def writeMemory (f : Fields) : Text :=
  f.writeImmediate ++ [.scalar '('] ++ f.rs1.name ++ [.scalar ')']

def writeHex (w : Word) : Text := ofString "0x" ++ Numeral.hexadecimal w.toNat

def writeTransfer (f : Fields) (pc : Address) : Text :=
  f.writeImmediate ++ ofString " # " ++ writeHex (pc + BitVec.ofInt 32 f.immediate)

def writeOperands (f : Fields) (isLoad : Bool) (pc : Address) : List Text :=
  match f.format with
  | .r => [f.rd.name, f.rs1.name, f.rs2.name]
  | .i =>
    if isLoad then [f.rd.name, f.writeMemory] else [f.rd.name, f.rs1.name, f.writeImmediate]
  | .s => [f.rs2.name, f.writeMemory]
  | .b => [f.rs1.name, f.rs2.name, f.writeTransfer pc]
  | .u => [f.rd.name, writeHex (BitVec.ofInt 32 f.immediate)]
  | .j => [f.rd.name, f.writeTransfer pc]
  | .unassigned => []

end Fields

namespace Descriptor

def write (d : Descriptor) (f : Fields) (pc : Address) : Text :=
  d.mnemonic ++ [.scalar ' '] ++ (ofString ", ").intercalate (f.writeOperands d.isLoad pc)

def constants : List (Word × Text) :=
  table.filterMap fun d =>
    match d.fixed, d.encode [] 0 .empty with
    | some _, .ok w => some (w, d.mnemonic)
    | _, _ => none

end Descriptor

namespace Word

def asData (w : Word) : Text := ofString ".word 0x" ++ Numeral.places 16 8 w.toNat

def disassemble (w : Word) (pc : Address) : Text :=
  match Descriptor.constants.lookup w with
  | some mnemonic => mnemonic
  | none =>
    match Fields.ofWord? w with
    | none => w.asData
    | some f =>
      match Descriptor.table.find? (·.describes f) with
      | none => w.asData
      | some d => d.write f pc

end Word

end Rv32i
