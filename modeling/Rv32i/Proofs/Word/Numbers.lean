import Mathlib.Algebra.BigOperators.Group.Finset.Basic
import Mathlib.Algebra.Ring.Int.Defs
import Mathlib.Tactic.Ring
import Rv32i.Proofs.Word.Layout
import Rv32i.Word.Fields

/-!
# The numbers in a word

What decoding finds in a word, said with the numbers that its bits make up and without any cutting
and joining of bits. The highest bit of a signed immediate counts negative and all others count
positive, each in its place.
-/

set_option autoImplicit false

namespace Rv32i

namespace Word

def bit (w : Word) (i : Nat) : Nat := (w.getLsbD i).toNat

def number (w : Word) (high low : Nat) : Nat :=
  ∑ i ∈ Finset.range (high + 1 - low), 2 ^ i * w.bit (low + i)

def ShiftsByAmount (w : Word) : Prop :=
  w.number 6 0 = 0b0010011 ∧ (w.number 14 12 = 0b001 ∨ w.number 14 12 = 0b101)

instance (w : Word) : Decidable w.ShiftsByAmount := inferInstanceAs (Decidable (_ ∧ _))

def immediateNumber (w : Word) : Format → Int
  | .i =>
    if w.ShiftsByAmount then w.number 24 20 else -2 ^ 11 * w.bit 31 + w.number 30 20
  | .s => -2 ^ 11 * w.bit 31 + 2 ^ 5 * w.number 30 25 + w.number 11 7
  | .b => -2 ^ 12 * w.bit 31 + 2 ^ 11 * w.bit 7 + 2 ^ 5 * w.number 30 25 + 2 * w.number 11 8
  | .u => -2 ^ 31 * w.bit 31 + 2 ^ 12 * w.number 30 12
  | .j => -2 ^ 20 * w.bit 31 + 2 ^ 12 * w.number 19 12 + 2 ^ 11 * w.bit 20 + 2 * w.number 30 21
  | _ => 0

end Word

def Format.byOpcode : List (Nat × Format) :=
  [(0b0000011, .i), (0b0010011, .i), (0b0010111, .u), (0b0100011, .s), (0b0110011, .r),
    (0b0110111, .u), (0b1100011, .b), (0b1100111, .i), (0b1101111, .j), (0b1110011, .i)]

namespace Fields

/-- Each field is the number in its bits if the format carries it, and zero otherwise. A shift
carries a function code in the bits above its amount. -/
structure Reads (f : Fields) (w : Word) (shape : Format) : Prop where
  format : f.format = shape
  opcode : f.opcode.toNat = w.number 6 0
  rd : f.rd.toNat = if shape ∈ [Format.r, .i, .u, .j] then w.number 11 7 else 0
  rs1 : f.rs1.toNat = if shape ∈ [Format.r, .i, .s, .b] then w.number 19 15 else 0
  rs2 : f.rs2.toNat = if shape ∈ [Format.r, .s, .b] then w.number 24 20 else 0
  funct3 : f.funct3.toNat = if shape ∈ [Format.r, .i, .s, .b] then w.number 14 12 else 0
  funct7 : f.funct7.toNat =
    if shape = .r ∨ shape = .i ∧ w.ShiftsByAmount then w.number 31 25 else 0
  immediate : f.immediate = w.immediateNumber shape

end Fields

namespace Word

variable (w : Word)

theorem toNat_extract (start len : Nat) :
    (w.extractLsb' start len).toNat = ∑ i ∈ Finset.range len, 2 ^ i * w.bit (start + i) := by
  rw [BitVec.extractLsb'_toNat]
  induction len with
  | zero => simp [Nat.mod_one]
  | succ len ih =>
    have hbit : w.bit (start + len) = w.toNat >>> start / 2 ^ len % 2 := by
      rw [bit, ← BitVec.testBit_toNat, ← Nat.testBit_shiftRight, Nat.toNat_testBit]
    rw [Finset.sum_range_succ, ← ih, Nat.mod_pow_succ, hbit]

theorem toNat_opcode : w.opcode.toNat = w.number 6 0 := w.toNat_extract 0 7

theorem toNat_rd : w.rd.toNat = w.number 11 7 := w.toNat_extract 7 5

theorem toNat_funct3 : w.funct3.toNat = w.number 14 12 := w.toNat_extract 12 3

theorem toNat_rs1 : w.rs1.toNat = w.number 19 15 := w.toNat_extract 15 5

theorem toNat_rs2 : w.rs2.toNat = w.number 24 20 := w.toNat_extract 20 5

theorem toNat_funct7 : w.funct7.toNat = w.number 31 25 := w.toNat_extract 25 7

theorem toNat_extract_one (i : Nat) : (w.extractLsb' i 1).toNat = w.bit i := by
  rw [toNat_extract, Finset.sum_range_one, Nat.pow_zero, Nat.one_mul, Nat.add_zero]

theorem toInt_extract_one (i : Nat) : (w.extractLsb' i 1).toInt = -w.bit i := by
  have hall : ∀ b : BitVec 1, b.toInt = -b.toNat := by decide
  rw [hall, toNat_extract_one]

/-- Only the part on top has a sign. -/
theorem toInt_append_of_pos {n m : Nat} (hn : n ≠ 0) (x : BitVec n) (y : BitVec m) :
    (x ++ y).toInt = 2 ^ m * x.toInt + y.toNat := by
  rw [BitVec.toInt_append, if_neg (by simpa using hn)]

/-- A cut that ends at the top bit. -/
theorem toInt_extract_top (start len : Nat) (h : start + len = 31) :
    (w.extractLsb' start (1 + len)).toInt = -2 ^ len * w.bit 31 + w.number 30 start := by
  have hcut : (w.extractLsb' start len).toNat = w.number 30 start := by
    have hlen : 30 + 1 - start = len := by omega
    rw [toNat_extract, number, hlen]
  rw [← cuts_join w start len 1, h, toInt_append_of_pos (by decide), toInt_extract_one, hcut]
  ring

theorem toInt_immediateI : w.immediateI.toInt = -2 ^ 11 * w.bit 31 + w.number 30 20 :=
  w.toInt_extract_top 20 11 rfl

theorem toInt_immediateS :
    w.immediateS.toInt = -2 ^ 11 * w.bit 31 + 2 ^ 5 * w.number 30 25 + w.number 11 7 := by
  have hlow : (w.extractLsb' 7 5).toNat = w.number 11 7 := w.toNat_rd
  rw [immediateS, toInt_append_of_pos (by decide), w.toInt_extract_top 25 6 rfl, hlow]
  ring

theorem toInt_immediateB : w.immediateB.toInt =
    -2 ^ 12 * w.bit 31 + 2 ^ 11 * w.bit 7 + 2 ^ 5 * w.number 30 25 + 2 * w.number 11 8 := by
  have hmiddle : (w.extractLsb' 25 6).toNat = w.number 30 25 := w.toNat_extract 25 6
  have hlow : (w.extractLsb' 8 4).toNat = w.number 11 8 := w.toNat_extract 8 4
  rw [immediateB, toInt_append_of_pos (by decide), toInt_append_of_pos (by decide),
    toInt_append_of_pos (by decide), toInt_append_of_pos (by decide), toInt_extract_one,
    toNat_extract_one, hmiddle, hlow, BitVec.toNat_zero]
  ring

theorem toInt_immediateU :
    w.immediateU.toInt = -2 ^ 31 * w.bit 31 + 2 ^ 12 * w.number 30 12 := by
  rw [immediateU, toInt_append_of_pos (by decide), w.toInt_extract_top 12 19 rfl,
    BitVec.toNat_zero]
  ring

theorem toInt_immediateJ : w.immediateJ.toInt =
    -2 ^ 20 * w.bit 31 + 2 ^ 12 * w.number 19 12 + 2 ^ 11 * w.bit 20 + 2 * w.number 30 21 := by
  have hmiddle : (w.extractLsb' 12 8).toNat = w.number 19 12 := w.toNat_extract 12 8
  have hlow : (w.extractLsb' 21 10).toNat = w.number 30 21 := w.toNat_extract 21 10
  rw [immediateJ, toInt_append_of_pos (by decide), toInt_append_of_pos (by decide),
    toInt_append_of_pos (by decide), toInt_append_of_pos (by decide), toInt_extract_one,
    toNat_extract_one, hmiddle, hlow, BitVec.toNat_zero]
  ring

theorem shiftsByAmount_iff {f : Fields} (hopcode : f.opcode = w.opcode)
    (hfunct3 : f.funct3 = w.funct3) : f.isShift = true ↔ w.ShiftsByAmount := by
  have hcode : ∀ x : BitVec 7, x.setWidth 8 = Opcode.immediate ↔ x.toNat = 0b0010011 := by decide
  have hfunct : ∀ x : BitVec 3, x = 0b001 ∨ x = 0b101 ↔ x.toNat = 0b001 ∨ x.toNat = 0b101 := by
    decide
  simp only [Fields.isShift, hopcode, hfunct3, Bool.and_eq_true, Bool.or_eq_true, beq_iff_eq]
  rw [hcode, hfunct, toNat_opcode, toNat_funct3, ShiftsByAmount]

theorem ofOpcode?_of_mem {format : Format} (h : (w.number 6 0, format) ∈ Format.byOpcode) :
    Format.ofOpcode? (w.opcode.setWidth 8) = some format := by
  have hall : ∀ x : BitVec 7, ∀ e ∈ Format.byOpcode, x.toNat = e.1 →
      Format.ofOpcode? (x.setWidth 8) = some e.2 := by decide
  exact hall w.opcode _ h w.toNat_opcode

theorem ofOpcode?_of_not_mem (h : ∀ format, (w.number 6 0, format) ∉ Format.byOpcode) :
    Format.ofOpcode? (w.opcode.setWidth 8) = none := by
  have hall : ∀ x : BitVec 7, (∀ e ∈ Format.byOpcode, x.toNat ≠ e.1) →
      Format.ofOpcode? (x.setWidth 8) = none := by decide
  apply hall
  rintro ⟨code, format⟩ hmem rfl
  rw [toNat_opcode] at hmem
  exact h format hmem

/-- A word of format I is a shift, with an amount, or has a signed immediate. -/
theorem ofWordI_reads : (Fields.ofWordI w).Reads w .i := by
  have hshift := w.shiftsByAmount_iff (f := { Fields.bare w.opcode with
    format := .i, rd := w.rd, funct3 := w.funct3, rs1 := w.rs1 }) rfl rfl
  unfold Fields.ofWordI
  dsimp only
  split
  · next h =>
    have hamount := hshift.1 h
    exact ⟨rfl, w.toNat_opcode, w.toNat_rd, w.toNat_rs1, rfl, w.toNat_funct3,
      by simpa [hamount] using w.toNat_funct7, by simp [immediateNumber, hamount, toNat_rs2]⟩
  · next h =>
    have hamount := mt hshift.2 h
    exact ⟨rfl, w.toNat_opcode, w.toNat_rd, w.toNat_rs1, rfl, w.toNat_funct3,
      by simp [hamount, Fields.bare], by simp [immediateNumber, hamount, toInt_immediateI]⟩

/-- Every word with a known opcode is decoded to the numbers in its bits, and no other word is
decoded. -/
theorem decodes_by_layout :
    (∀ format, (w.number 6 0, format) ∈ Format.byOpcode →
      ∃ f, Fields.ofWord? w = some f ∧ f.Reads w format) ∧
    ((∀ format, (w.number 6 0, format) ∉ Format.byOpcode) → Fields.ofWord? w = none) := by
  constructor
  · intro format h
    have hformat := w.ofOpcode?_of_mem h
    have hassigned : format ≠ .unassigned := by
      rintro rfl
      revert h
      simp [Format.byOpcode]
    unfold Fields.ofWord?
    rw [hformat]
    cases format with
    | r => exact ⟨_, rfl, rfl, w.toNat_opcode, w.toNat_rd, w.toNat_rs1, w.toNat_rs2,
        w.toNat_funct3, w.toNat_funct7, rfl⟩
    | i => exact ⟨_, rfl, w.ofWordI_reads⟩
    | s => exact ⟨_, rfl, rfl, w.toNat_opcode, rfl, w.toNat_rs1, w.toNat_rs2, w.toNat_funct3,
        rfl, w.toInt_immediateS⟩
    | b => exact ⟨_, rfl, rfl, w.toNat_opcode, rfl, w.toNat_rs1, w.toNat_rs2, w.toNat_funct3,
        rfl, w.toInt_immediateB⟩
    | u => exact ⟨_, rfl, rfl, w.toNat_opcode, w.toNat_rd, rfl, rfl, rfl, rfl,
        w.toInt_immediateU⟩
    | j => exact ⟨_, rfl, rfl, w.toNat_opcode, w.toNat_rd, rfl, rfl, rfl, rfl,
        w.toInt_immediateJ⟩
    | unassigned => exact absurd rfl hassigned
  · intro h
    rw [Fields.ofWord?, w.ofOpcode?_of_not_mem h]

end Word

end Rv32i
