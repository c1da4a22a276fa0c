import Rv32i.Instruction.Format
import Rv32i.Text.Lowercase

/-!
# The instruction table

Every mnemonic with the format of its words and the bits that are the same in all of them.
-/

set_option autoImplicit false

namespace Rv32i

open Text (ofString)

namespace Opcode

def load : BitVec 8 := 0b0000011
def immediate : BitVec 8 := 0b0010011
def auipc : BitVec 8 := 0b0010111
def store : BitVec 8 := 0b0100011
def register : BitVec 8 := 0b0110011
def lui : BitVec 8 := 0b0110111
def branch : BitVec 8 := 0b1100011
def jalr : BitVec 8 := 0b1100111
def jal : BitVec 8 := 0b1101111
def system : BitVec 8 := 0b1110011

end Opcode

/-- The constant part of an instruction. The codes are bytes, of which a word takes the low seven,
three and seven bits; formats without a function code ignore theirs. A descriptor with fixed
operands is written without any and encodes as if those had been written. -/
structure Descriptor where
  mnemonic : Text
  format : Format
  opcode : BitVec 8
  funct3 : BitVec 8
  funct7 : BitVec 8
  fixed : Option (List Text)
  deriving DecidableEq

namespace Descriptor

/-- Loads address memory, where other instructions of their format take an immediate. -/
def isLoad (d : Descriptor) : Bool := d.opcode == Opcode.load

/-- The immediate of a shift is its `funct7` followed by a five-bit amount. -/
def isShift (d : Descriptor) : Bool :=
  d.opcode == Opcode.immediate && (d.funct3 == 0b001 || d.funct3 == 0b101)

def arithmetic (name : String) (funct3 funct7 : BitVec 8) : Descriptor :=
  ⟨ofString name, .r, Opcode.register, funct3, funct7, none⟩

def immediate (name : String) (funct3 funct7 : BitVec 8) : Descriptor :=
  ⟨ofString name, .i, Opcode.immediate, funct3, funct7, none⟩

def load (name : String) (funct3 : BitVec 8) : Descriptor :=
  ⟨ofString name, .i, Opcode.load, funct3, 0, none⟩

def store (name : String) (funct3 : BitVec 8) : Descriptor :=
  ⟨ofString name, .s, Opcode.store, funct3, 0, none⟩

def branch (name : String) (funct3 : BitVec 8) : Descriptor :=
  ⟨ofString name, .b, Opcode.branch, funct3, 0, none⟩

def upper (name : String) (opcode : BitVec 8) : Descriptor :=
  ⟨ofString name, .u, opcode, 0, 0, none⟩

def constant (name : String) (opcode : BitVec 8) (immediate : String) : Descriptor :=
  ⟨ofString name, .i, opcode, 0, 0, some (["x0", "x0", immediate].map ofString)⟩

def table : List Descriptor :=
  [ arithmetic "add" 0b000 0b0000000,
    arithmetic "sub" 0b000 0b0100000,
    arithmetic "sll" 0b001 0b0000000,
    arithmetic "slt" 0b010 0b0000000,
    arithmetic "sltu" 0b011 0b0000000,
    arithmetic "xor" 0b100 0b0000000,
    arithmetic "srl" 0b101 0b0000000,
    arithmetic "sra" 0b101 0b0100000,
    arithmetic "or" 0b110 0b0000000,
    arithmetic "and" 0b111 0b0000000,
    immediate "addi" 0b000 0b0000000,
    immediate "slti" 0b010 0b0000000,
    immediate "sltiu" 0b011 0b0000000,
    immediate "xori" 0b100 0b0000000,
    immediate "ori" 0b110 0b0000000,
    immediate "andi" 0b111 0b0000000,
    immediate "slli" 0b001 0b0000000,
    immediate "srli" 0b101 0b0000000,
    immediate "srai" 0b101 0b0100000,
    load "lb" 0b000,
    load "lh" 0b001,
    load "lw" 0b010,
    load "lbu" 0b100,
    load "lhu" 0b101,
    ⟨ofString "jalr", .i, Opcode.jalr, 0b000, 0, none⟩,
    store "sb" 0b000,
    store "sh" 0b001,
    store "sw" 0b010,
    branch "beq" 0b000,
    branch "bne" 0b001,
    branch "blt" 0b100,
    branch "bge" 0b101,
    branch "bltu" 0b110,
    branch "bgeu" 0b111,
    upper "lui" Opcode.lui,
    upper "auipc" Opcode.auipc,
    ⟨ofString "jal", .j, Opcode.jal, 0, 0, none⟩,
    constant "nop" Opcode.immediate "0",
    constant "ecall" Opcode.system "0",
    constant "ebreak" Opcode.system "1" ]

def find? (mnemonic : Text) : Option Descriptor :=
  table.find? (·.mnemonic == mnemonic.lower)

def mnemonics : List Text := (table.map mnemonic).mergeSort Text.le

end Descriptor

end Rv32i
