import Rv32i.Instruction.Table
import Rv32i.Operand
import Rv32i.Word.Layout

/-!
# Encoding

An instruction is encoded in two steps. Its operands are resolved to registers and a number, which
can fail; the first broken rule is reported, in the order operand count, registers, immediate or
target, alignment, range. What is resolved is then packed into a word, which cannot.
-/

set_option autoImplicit false

namespace Rv32i

inductive Payload where
  | r (rd rs1 rs2 : Register)
  | i (rd rs1 : Register) (immediate : Int)
  | s (rs2 rs1 : Register) (offset : Int)
  | b (rs1 rs2 : Register) (offset : Int)
  | u (rd : Register) (immediate : Int)
  | j (rd : Register) (offset : Int)
  deriving DecidableEq

def checkRange (value low high : Int) : Except Fault Unit :=
  if low ≤ value ∧ value ≤ high then .ok () else .error (.outOfRange value low high)

def checkEven (transfer : Transfer) (offset : Int) : Except Fault Unit :=
  if offset % 2 = 0 then .ok () else .error (.oddOffset transfer offset)

namespace Payload

def checkShort (value : Int) : Except Fault Unit := checkRange value (-2048) 2047

def resolveR : List Text → Except Fault Payload
  | [rd, rs1, rs2] => do
    return r (← Register.parse rd) (← Register.parse rs1) (← Register.parse rs2)
  | operands => throw (.operandCount 3 operands.length)

def resolveLoad : List Text → Except Fault Payload
  | [rd, memory] => do
    let rd ← Register.parse rd
    let memory ← MemoryOperand.parse memory
    checkShort memory.offset
    return i rd memory.base memory.offset
  | operands => throw (.operandCount 2 operands.length)

def resolveI (symbols : SymbolTable) : List Text → Except Fault Payload
  | [rd, rs1, immediate] => do
    let rd ← Register.parse rd
    let rs1 ← Register.parse rs1
    let immediate ← Immediate.resolve immediate symbols
    checkShort immediate
    return i rd rs1 immediate
  | operands => throw (.operandCount 3 operands.length)

def resolveS : List Text → Except Fault Payload
  | [rs2, memory] => do
    let rs2 ← Register.parse rs2
    let memory ← MemoryOperand.parse memory
    checkShort memory.offset
    return s rs2 memory.base memory.offset
  | operands => throw (.operandCount 2 operands.length)

def resolveB (pc : Address) (symbols : SymbolTable) : List Text → Except Fault Payload
  | [rs1, rs2, target] => do
    let rs1 ← Register.parse rs1
    let rs2 ← Register.parse rs2
    let offset ← Target.resolve target pc symbols
    checkEven .branch offset
    checkRange offset (-4096) 4095
    return b rs1 rs2 offset
  | operands => throw (.operandCount 3 operands.length)

def resolveU (symbols : SymbolTable) : List Text → Except Fault Payload
  | [rd, immediate] => do
    return u (← Register.parse rd) (← Immediate.resolve immediate symbols)
  | operands => throw (.operandCount 2 operands.length)

def resolveJ (pc : Address) (symbols : SymbolTable) : List Text → Except Fault Payload
  | [rd, target] => do
    let rd ← Register.parse rd
    let offset ← Target.resolve target pc symbols
    checkEven .jump offset
    checkRange offset (-1048576) 1048575
    return j rd offset
  | operands => throw (.operandCount 2 operands.length)

end Payload

namespace Descriptor

/-- The operands that count: those written, or the fixed ones if none may be written. -/
def effectiveOperands (d : Descriptor) (operands : List Text) : Except Fault (List Text) :=
  match d.fixed with
  | none => .ok operands
  | some fixed =>
    if operands.isEmpty then .ok fixed else .error (.operandCount 0 operands.length)

def resolve (d : Descriptor) (operands : List Text) (pc : Address) (symbols : SymbolTable) :
    Except Fault Payload :=
  match d.format with
  | .r => Payload.resolveR operands
  | .i => if d.isLoad then Payload.resolveLoad operands else Payload.resolveI symbols operands
  | .s => Payload.resolveS operands
  | .b => Payload.resolveB pc symbols operands
  | .u => Payload.resolveU symbols operands
  | .j => Payload.resolveJ pc symbols operands
  | .unassigned => .error (.unsupportedFormat d.mnemonic d.format)

/-- The twelve immediate bits of format I. A shift keeps five of them, under its `funct7`. -/
def immediateBits (d : Descriptor) (immediate : Int) : BitVec 12 :=
  if d.isShift then d.funct7.setWidth 7 ++ BitVec.ofInt 5 immediate
  else BitVec.ofInt 12 immediate

def pack (d : Descriptor) : Payload → Word
  | .r rd rs1 rs2 =>
    Word.packR (d.funct7.setWidth 7) rs2 rs1 (d.funct3.setWidth 3) rd (d.opcode.setWidth 7)
  | .i rd rs1 immediate =>
    Word.packI (d.immediateBits immediate) rs1 (d.funct3.setWidth 3) rd (d.opcode.setWidth 7)
  | .s rs2 rs1 offset =>
    Word.packS (BitVec.ofInt 12 offset) rs2 rs1 (d.funct3.setWidth 3) (d.opcode.setWidth 7)
  | .b rs1 rs2 offset =>
    Word.packB (BitVec.ofInt 13 offset) rs2 rs1 (d.funct3.setWidth 3) (d.opcode.setWidth 7)
  | .u rd immediate =>
    Word.packU ((BitVec.ofInt 32 immediate).extractLsb' 12 20) rd (d.opcode.setWidth 7)
  | .j rd offset => Word.packJ (BitVec.ofInt 21 offset) rd (d.opcode.setWidth 7)

def encode (d : Descriptor) (operands : List Text) (pc : Address) (symbols : SymbolTable) :
    Except Fault Word := do
  let operands ← d.effectiveOperands operands
  let payload ← d.resolve operands pc symbols
  return d.pack payload

end Descriptor

end Rv32i
