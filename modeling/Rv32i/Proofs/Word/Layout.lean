import Rv32i.Word.Layout

/-!
# Field layouts are bijective

Reading a field of a packed word gives back what was packed there, and packing the fields of a word
gives back the word. Offsets of branches and jumps lose their lowest bit, which is always zero.
-/

set_option autoImplicit false

namespace Rv32i

namespace Word

/-- Two neighbouring cuts of a bit vector make one cut. -/
theorem cuts_join {n : Nat} (x : BitVec n) (start low high : Nat) :
    x.extractLsb' (start + low) high ++ x.extractLsb' start low =
      x.extractLsb' start (high + low) :=
  BitVec.extractLsb'_append_extractLsb'_eq_extractLsb' rfl

-- A cut of an append falls on one side of it. The widths in the types have to stay as sums for
-- these lemmas to apply, hence `-Nat.reduceAdd` below.
attribute [local simp] BitVec.extractLsb'_append_eq_of_le BitVec.extractLsb'_append_eq_of_add_le

section Packed

variable (op f7 : BitVec 7) (f3 : BitVec 3) (dst src src2 : Register)
variable (imm12 : BitVec 12) (imm13 : BitVec 13) (imm20 : BitVec 20) (imm21 : BitVec 21)

@[simp] theorem opcode_packR : (packR f7 src2 src f3 dst op).opcode = op := by
  simp [packR, opcode, -Nat.reduceAdd]

@[simp] theorem rd_packR : (packR f7 src2 src f3 dst op).rd = dst := by
  simp [packR, rd, -Nat.reduceAdd]

@[simp] theorem funct3_packR : (packR f7 src2 src f3 dst op).funct3 = f3 := by
  simp [packR, funct3, -Nat.reduceAdd]

@[simp] theorem rs1_packR : (packR f7 src2 src f3 dst op).rs1 = src := by
  simp [packR, rs1, -Nat.reduceAdd]

@[simp] theorem rs2_packR : (packR f7 src2 src f3 dst op).rs2 = src2 := by
  simp [packR, rs2, -Nat.reduceAdd]

@[simp] theorem funct7_packR : (packR f7 src2 src f3 dst op).funct7 = f7 := by
  simp [packR, funct7, -Nat.reduceAdd]

@[simp] theorem opcode_packI : (packI imm12 src f3 dst op).opcode = op := by
  simp [packI, opcode, -Nat.reduceAdd]

@[simp] theorem rd_packI : (packI imm12 src f3 dst op).rd = dst := by
  simp [packI, rd, -Nat.reduceAdd]

@[simp] theorem funct3_packI : (packI imm12 src f3 dst op).funct3 = f3 := by
  simp [packI, funct3, -Nat.reduceAdd]

@[simp] theorem rs1_packI : (packI imm12 src f3 dst op).rs1 = src := by
  simp [packI, rs1, -Nat.reduceAdd]

@[simp] theorem immediateI_packI : (packI imm12 src f3 dst op).immediateI = imm12 := by
  simp [packI, immediateI, -Nat.reduceAdd]

/-- A shift has a function code in the upper bits of its immediate. -/
@[simp] theorem funct7_packI : (packI imm12 src f3 dst op).funct7 = imm12.extractLsb' 5 7 := by
  simp [packI, funct7, -Nat.reduceAdd]

/-- A shift has its amount in the lower bits of its immediate. -/
@[simp] theorem rs2_packI : (packI imm12 src f3 dst op).rs2 = imm12.extractLsb' 0 5 := by
  simp [packI, rs2, -Nat.reduceAdd]

@[simp] theorem opcode_packS : (packS imm12 src2 src f3 op).opcode = op := by
  simp [packS, opcode, -Nat.reduceAdd]

@[simp] theorem funct3_packS : (packS imm12 src2 src f3 op).funct3 = f3 := by
  simp [packS, funct3, -Nat.reduceAdd]

@[simp] theorem rs1_packS : (packS imm12 src2 src f3 op).rs1 = src := by
  simp [packS, rs1, -Nat.reduceAdd]

@[simp] theorem rs2_packS : (packS imm12 src2 src f3 op).rs2 = src2 := by
  simp [packS, rs2, -Nat.reduceAdd]

@[simp] theorem immediateS_packS : (packS imm12 src2 src f3 op).immediateS = imm12 := by
  simp [packS, immediateS, -Nat.reduceAdd]

@[simp] theorem opcode_packB : (packB imm13 src2 src f3 op).opcode = op := by
  simp [packB, opcode, -Nat.reduceAdd]

@[simp] theorem funct3_packB : (packB imm13 src2 src f3 op).funct3 = f3 := by
  simp [packB, funct3, -Nat.reduceAdd]

@[simp] theorem rs1_packB : (packB imm13 src2 src f3 op).rs1 = src := by
  simp [packB, rs1, -Nat.reduceAdd]

@[simp] theorem rs2_packB : (packB imm13 src2 src f3 op).rs2 = src2 := by
  simp [packB, rs2, -Nat.reduceAdd]

@[simp] theorem immediateB_packB :
    (packB imm13 src2 src f3 op).immediateB = imm13.extractLsb' 1 12 ++ 0#1 := by
  simp [packB, immediateB, -Nat.reduceAdd]
  rw [cuts_join imm13 11 1 1, cuts_join imm13 5 6 2, cuts_join imm13 1 4 8]

@[simp] theorem opcode_packU : (packU imm20 dst op).opcode = op := by
  simp [packU, opcode, -Nat.reduceAdd]

@[simp] theorem rd_packU : (packU imm20 dst op).rd = dst := by
  simp [packU, rd, -Nat.reduceAdd]

@[simp] theorem immediateU_packU : (packU imm20 dst op).immediateU = imm20 ++ 0#12 := by
  simp [packU, immediateU, -Nat.reduceAdd]

@[simp] theorem opcode_packJ : (packJ imm21 dst op).opcode = op := by
  simp [packJ, opcode, -Nat.reduceAdd]

@[simp] theorem rd_packJ : (packJ imm21 dst op).rd = dst := by
  simp [packJ, rd, -Nat.reduceAdd]

@[simp] theorem immediateJ_packJ :
    (packJ imm21 dst op).immediateJ = imm21.extractLsb' 1 20 ++ 0#1 := by
  simp [packJ, immediateJ, -Nat.reduceAdd]
  rw [cuts_join imm21 12 8 1, cuts_join imm21 11 1 9, cuts_join imm21 1 10 10]

end Packed

section Unpacked

variable (w : Word)

theorem packR_fields : packR w.funct7 w.rs2 w.rs1 w.funct3 w.rd w.opcode = w := by
  unfold packR funct7 rs2 rs1 funct3 rd opcode
  rw [cuts_join w 20 5 7, cuts_join w 15 5 12, cuts_join w 12 3 17, cuts_join w 7 5 20,
    cuts_join w 0 7 25]
  exact BitVec.extractLsb'_eq_self

theorem packI_fields : packI w.immediateI w.rs1 w.funct3 w.rd w.opcode = w := by
  unfold packI immediateI rs1 funct3 rd opcode
  rw [cuts_join w 15 5 12, cuts_join w 12 3 17, cuts_join w 7 5 20, cuts_join w 0 7 25]
  exact BitVec.extractLsb'_eq_self

theorem packI_shift_fields :
    packI (w.funct7 ++ w.rs2) w.rs1 w.funct3 w.rd w.opcode = w := by
  have himm : w.funct7 ++ w.rs2 = w.immediateI := cuts_join w 20 5 7
  rw [himm, packI_fields]

theorem packS_fields : packS w.immediateS w.rs2 w.rs1 w.funct3 w.opcode = w := by
  have hhigh : w.immediateS.extractLsb' 5 7 = w.funct7 := by
    simp [immediateS, funct7, -Nat.reduceAdd]
  have hlow : w.immediateS.extractLsb' 0 5 = w.rd := by
    simp [immediateS, rd, -Nat.reduceAdd]
  rw [packS, hhigh, hlow]
  exact packR_fields w

theorem packB_fields : packB w.immediateB w.rs2 w.rs1 w.funct3 w.opcode = w := by
  have h12 : w.immediateB.extractLsb' 12 1 = w.extractLsb' 31 1 := by
    simp [immediateB, -Nat.reduceAdd]
  have h5 : w.immediateB.extractLsb' 5 6 = w.extractLsb' 25 6 := by
    simp [immediateB, -Nat.reduceAdd]
  have h1 : w.immediateB.extractLsb' 1 4 = w.extractLsb' 8 4 := by
    simp [immediateB, -Nat.reduceAdd]
  have h11 : w.immediateB.extractLsb' 11 1 = w.extractLsb' 7 1 := by
    simp [immediateB, -Nat.reduceAdd]
  rw [packB, h12, h5, h1, h11]
  unfold rs2 rs1 funct3 opcode
  rw [cuts_join w 25 6 1, cuts_join w 20 5 7, cuts_join w 15 5 12, cuts_join w 12 3 17,
    cuts_join w 8 4 20, cuts_join w 7 1 24, cuts_join w 0 7 25]
  exact BitVec.extractLsb'_eq_self

theorem packU_fields : packU (w.immediateU.extractLsb' 12 20) w.rd w.opcode = w := by
  have himm : w.immediateU.extractLsb' 12 20 = w.extractLsb' 12 20 := by
    simp [immediateU, -Nat.reduceAdd]
  rw [packU, himm]
  unfold rd opcode
  rw [cuts_join w 7 5 20, cuts_join w 0 7 25]
  exact BitVec.extractLsb'_eq_self

theorem packJ_fields : packJ w.immediateJ w.rd w.opcode = w := by
  have h20 : w.immediateJ.extractLsb' 20 1 = w.extractLsb' 31 1 := by
    simp [immediateJ, -Nat.reduceAdd]
  have h1 : w.immediateJ.extractLsb' 1 10 = w.extractLsb' 21 10 := by
    simp [immediateJ, -Nat.reduceAdd]
  have h11 : w.immediateJ.extractLsb' 11 1 = w.extractLsb' 20 1 := by
    simp [immediateJ, -Nat.reduceAdd]
  have h12 : w.immediateJ.extractLsb' 12 8 = w.extractLsb' 12 8 := by
    simp [immediateJ, -Nat.reduceAdd]
  rw [packJ, h20, h1, h11, h12]
  unfold rd opcode
  rw [cuts_join w 21 10 1, cuts_join w 20 1 11, cuts_join w 12 8 12, cuts_join w 7 5 20,
    cuts_join w 0 7 25]
  exact BitVec.extractLsb'_eq_self

end Unpacked

end Word

end Rv32i
