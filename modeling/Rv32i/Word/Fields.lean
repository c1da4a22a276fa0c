import Rv32i.Instruction.Table
import Rv32i.Word.Layout

/-!
# Decoding

A word whose opcode is known is read as the fields of that opcode's format. Fields that the
format does not carry are zero.
-/

set_option autoImplicit false

namespace Rv32i

def Format.ofOpcode? (opcode : BitVec 8) : Option Format :=
  [(Opcode.load, i), (Opcode.immediate, i), (Opcode.auipc, u), (Opcode.store, s),
    (Opcode.register, r), (Opcode.lui, u), (Opcode.branch, b), (Opcode.jalr, i), (Opcode.jal, j),
    (Opcode.system, i)].lookup opcode

/-- The immediate is the number it denotes, sign included; that of format U has its twelve low
bits zero. -/
structure Fields where
  format : Format
  opcode : BitVec 7
  rd : Register
  rs1 : Register
  rs2 : Register
  funct3 : BitVec 3
  funct7 : BitVec 7
  immediate : Int
  deriving DecidableEq

namespace Fields

def bare (opcode : BitVec 7) : Fields := ⟨.r, opcode, 0, 0, 0, 0, 0, 0⟩

def isShift (f : Fields) : Bool :=
  f.opcode.setWidth 8 == Opcode.immediate && (f.funct3 == 0b001 || f.funct3 == 0b101)

/-- Shifts carry a function code and an unsigned amount in place of their immediate. -/
def ofWordI (w : Word) : Fields :=
  let f := { bare w.opcode with format := .i, rd := w.rd, funct3 := w.funct3, rs1 := w.rs1 }
  if f.isShift then { f with funct7 := w.funct7, immediate := w.rs2.toNat }
  else { f with immediate := w.immediateI.toInt }

def ofWord? (w : Word) : Option Fields :=
  let f := bare w.opcode
  match Format.ofOpcode? (w.opcode.setWidth 8) with
  | some .r => some { f with
      format := .r, rd := w.rd, funct3 := w.funct3, rs1 := w.rs1, rs2 := w.rs2,
      funct7 := w.funct7 }
  | some .i => some (ofWordI w)
  | some .s => some { f with
      format := .s, funct3 := w.funct3, rs1 := w.rs1, rs2 := w.rs2,
      immediate := w.immediateS.toInt }
  | some .b => some { f with
      format := .b, funct3 := w.funct3, rs1 := w.rs1, rs2 := w.rs2,
      immediate := w.immediateB.toInt }
  | some .u => some { f with format := .u, rd := w.rd, immediate := w.immediateU.toInt }
  | some .j => some { f with format := .j, rd := w.rd, immediate := w.immediateJ.toInt }
  | some .unassigned => none
  | none => none

end Fields

end Rv32i
