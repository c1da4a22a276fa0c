import Rv32i.Register

/-!
# Words and their fields

Machine words and byte addresses have 32 bits, and both wrap around. The fields of an instruction
have their places in its word: each format is written once as the fields from the top bit down, and
the immediates that a format scatters are gathered by the reader of the same name.
-/

set_option autoImplicit false

namespace Rv32i

abbrev Word := BitVec 32

abbrev Address := BitVec 32

def wordSize : Address := 4

namespace Word

def littleEndian (w : Word) : List UInt8 :=
  [0, 8, 16, 24].map fun start => UInt8.ofBitVec (w.extractLsb' start 8)

def packR (funct7 : BitVec 7) (rs2 rs1 : Register) (funct3 : BitVec 3) (rd : Register)
    (opcode : BitVec 7) : Word :=
  funct7 ++ rs2 ++ rs1 ++ funct3 ++ rd ++ opcode

def packI (imm : BitVec 12) (rs1 : Register) (funct3 : BitVec 3) (rd : Register)
    (opcode : BitVec 7) : Word :=
  imm ++ rs1 ++ funct3 ++ rd ++ opcode

def packS (imm : BitVec 12) (rs2 rs1 : Register) (funct3 : BitVec 3) (opcode : BitVec 7) : Word :=
  imm.extractLsb' 5 7 ++ rs2 ++ rs1 ++ funct3 ++ imm.extractLsb' 0 5 ++ opcode

/-- The lowest bit of the offset is not stored. -/
def packB (imm : BitVec 13) (rs2 rs1 : Register) (funct3 : BitVec 3) (opcode : BitVec 7) : Word :=
  imm.extractLsb' 12 1 ++ imm.extractLsb' 5 6 ++ rs2 ++ rs1 ++ funct3 ++
    imm.extractLsb' 1 4 ++ imm.extractLsb' 11 1 ++ opcode

def packU (imm : BitVec 20) (rd : Register) (opcode : BitVec 7) : Word :=
  imm ++ rd ++ opcode

/-- The lowest bit of the offset is not stored. -/
def packJ (imm : BitVec 21) (rd : Register) (opcode : BitVec 7) : Word :=
  imm.extractLsb' 20 1 ++ imm.extractLsb' 1 10 ++ imm.extractLsb' 11 1 ++
    imm.extractLsb' 12 8 ++ rd ++ opcode

def opcode (w : Word) : BitVec 7 := w.extractLsb' 0 7

def rd (w : Word) : Register := w.extractLsb' 7 5

def funct3 (w : Word) : BitVec 3 := w.extractLsb' 12 3

def rs1 (w : Word) : Register := w.extractLsb' 15 5

def rs2 (w : Word) : Register := w.extractLsb' 20 5

def funct7 (w : Word) : BitVec 7 := w.extractLsb' 25 7

def immediateI (w : Word) : BitVec 12 := w.extractLsb' 20 12

def immediateS (w : Word) : BitVec 12 := w.extractLsb' 25 7 ++ w.extractLsb' 7 5

def immediateB (w : Word) : BitVec 13 :=
  w.extractLsb' 31 1 ++ w.extractLsb' 7 1 ++ w.extractLsb' 25 6 ++ w.extractLsb' 8 4 ++ 0#1

def immediateU (w : Word) : BitVec 32 := w.extractLsb' 12 20 ++ 0#12

def immediateJ (w : Word) : BitVec 21 :=
  w.extractLsb' 31 1 ++ w.extractLsb' 12 8 ++ w.extractLsb' 20 1 ++ w.extractLsb' 21 10 ++ 0#1

end Word

end Rv32i
