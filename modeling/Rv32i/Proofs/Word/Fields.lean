import Rv32i.Proofs.Encoding
import Rv32i.Proofs.Word.Layout
import Rv32i.Word.Fields

/-!
# Decoding and packing are inverse

Decoding a packed payload gives its descriptor's codes and the payload itself, and packing what was
decoded from a word gives the word, whether or not any instruction has its codes.
-/

set_option autoImplicit false

namespace Rv32i

theorem Format.lt_of_ofOpcode? : ∀ opcode : BitVec 8,
    (Format.ofOpcode? opcode).isSome → opcode < 128 := by
  decide

namespace Descriptor

structure WellFormed (d : Descriptor) : Prop where
  format : Format.ofOpcode? d.opcode = some d.format
  funct3 : d.funct3 < 8
  funct7 : d.funct7 < 128

theorem wellFormed_of_mem {d : Descriptor} (h : d ∈ table) : d.WellFormed := by
  have hall : ∀ d ∈ table, Format.ofOpcode? d.opcode = some d.format ∧
      d.funct3 < 8 ∧ d.funct7 < 128 := by decide
  obtain ⟨hformat, hfunct3, hfunct7⟩ := hall d h
  exact ⟨hformat, hfunct3, hfunct7⟩

section WellFormed

variable {d : Descriptor} (hd : d.WellFormed)
include hd

theorem WellFormed.opcode_roundtrip : (d.opcode.setWidth 7).setWidth 8 = d.opcode := by
  have h : d.opcode < 128 := Format.lt_of_ofOpcode? d.opcode (by rw [hd.format]; rfl)
  exact BitVec.setWidth_setWidth_eq_self h

theorem WellFormed.funct3_roundtrip : (d.funct3.setWidth 3).setWidth 8 = d.funct3 :=
  BitVec.setWidth_setWidth_eq_self hd.funct3

theorem WellFormed.funct7_roundtrip : (d.funct7.setWidth 7).setWidth 8 = d.funct7 :=
  BitVec.setWidth_setWidth_eq_self hd.funct7

theorem WellFormed.funct3_beq (code : BitVec 3) :
    (d.funct3.setWidth 3 == code) = (d.funct3 == code.setWidth 8) := by
  have hiff : d.funct3.setWidth 3 = code ↔ d.funct3 = code.setWidth 8 := by
    constructor
    · intro h
      rw [← h, hd.funct3_roundtrip]
    · intro h
      rw [h, BitVec.setWidth_setWidth_of_le _ (by decide), BitVec.setWidth_eq]
  rw [Bool.eq_iff_iff, beq_iff_eq, beq_iff_eq, hiff]

theorem WellFormed.isShift_eq {f : Fields} (hopcode : f.opcode = d.opcode.setWidth 7)
    (hfunct3 : f.funct3 = d.funct3.setWidth 3) : f.isShift = d.isShift := by
  rw [Fields.isShift, hopcode, hfunct3, hd.opcode_roundtrip, hd.funct3_beq, hd.funct3_beq]
  rfl

end WellFormed

def fieldsOf (d : Descriptor) (p : Payload) : Fields :=
  let f := { Fields.bare (d.opcode.setWidth 7) with format := d.format }
  match p with
  | .r rd rs1 rs2 => { f with
      rd, rs1, rs2, funct3 := d.funct3.setWidth 3, funct7 := d.funct7.setWidth 7 }
  | .i rd rs1 immediate =>
    let f := { f with rd, rs1, funct3 := d.funct3.setWidth 3 }
    if d.isShift then { f with funct7 := d.funct7.setWidth 7, immediate := immediate % 32 }
    else { f with immediate }
  | .s rs2 rs1 offset => { f with rs2, rs1, funct3 := d.funct3.setWidth 3, immediate := offset }
  | .b rs1 rs2 offset => { f with rs1, rs2, funct3 := d.funct3.setWidth 3, immediate := offset }
  | .u rd immediate => { f with
      rd, immediate := ((BitVec.ofInt 32 immediate).extractLsb' 12 20 ++ 0#12).toInt }
  | .j rd offset => { f with rd, immediate := offset }

end Descriptor

/-- The lowest bit of an even offset need not be stored. -/
theorem even_offset_bits (n : Nat) {v : Int} (h : v % 2 = 0) :
    (BitVec.ofInt (n + 1) v).extractLsb' 1 n ++ 0#1 = BitVec.ofInt (n + 1) v := by
  have hlow : (BitVec.ofInt (n + 1) v).extractLsb' 0 1 = 0#1 := by
    apply BitVec.eq_of_toNat_eq
    have hdvd : (2 : Int) ∣ ((2 ^ (n + 1) : Nat) : Int) := ⟨2 ^ n, by push_cast; omega⟩
    have hmod : v % ((2 ^ (n + 1) : Nat) : Int) % 2 = 0 := by rw [Int.emod_emod_of_dvd v hdvd, h]
    simp only [BitVec.extractLsb'_toNat, BitVec.toNat_ofInt, BitVec.toNat_ofNat]
    generalize v % ((2 ^ (n + 1) : Nat) : Int) = m at hmod
    simp only [Nat.shiftRight_zero]
    omega
  rw [← hlow]
  exact (Word.cuts_join _ 0 1 n).trans BitVec.extractLsb'_eq_self

namespace Fields

open Descriptor in
theorem ofWord?_pack {d : Descriptor} (hd : d.WellFormed) {p : Payload}
    (hformat : p.format = d.format) (hfits : p.Fits) :
    ofWord? (d.pack p) = some (d.fieldsOf p) := by
  have hopcode : Format.ofOpcode? ((d.opcode.setWidth 7).setWidth 8) = some p.format := by
    rw [hd.opcode_roundtrip, hd.format, hformat]
  cases p with
  | r rd rs1 rs2 =>
    simp only [Payload.format] at hopcode hformat
    simp only [ofWord?, pack, Word.opcode_packR, hopcode]
    simp [fieldsOf, bare, ← hformat]
  | i rd rs1 immediate =>
    simp only [Payload.format] at hopcode hformat
    have hshift := hd.isShift_eq (f := { bare (d.opcode.setWidth 7) with
      format := .i, rd, funct3 := d.funct3.setWidth 3, rs1 }) rfl rfl
    simp only [ofWord?, pack, Word.opcode_packI, hopcode]
    simp only [ofWordI, Word.opcode_packI, Word.rd_packI, Word.funct3_packI, Word.rs1_packI, hshift]
    by_cases h : d.isShift
    · have hcode : (d.funct7.setWidth 7 ++ BitVec.ofInt 5 immediate).extractLsb' 5 7 =
          d.funct7.setWidth 7 := BitVec.extractLsb'_append_eq_left
      have hlow : (d.funct7.setWidth 7 ++ BitVec.ofInt 5 immediate).extractLsb' 0 5 =
          BitVec.ofInt 5 immediate := BitVec.extractLsb'_append_eq_right
      have hamount : ((BitVec.ofInt 5 immediate).toNat : Int) = immediate % 32 := by
        rw [BitVec.toNat_ofInt]
        omega
      simp only [h, if_true, immediateBits, Word.funct7_packI, Word.rs2_packI, hcode, hlow,
        hamount, fieldsOf, bare, ← hformat]
    · have himm : (BitVec.ofInt 12 immediate).toInt = immediate :=
        BitVec.toInt_ofInt_eq_self (by decide) hfits.1 (by have := hfits.2; omega)
      simp [fieldsOf, bare, ← hformat, immediateBits, h, himm, -BitVec.toInt_ofInt]
  | s rs2 rs1 offset =>
    have hoffset : (BitVec.ofInt 12 offset).toInt = offset :=
      BitVec.toInt_ofInt_eq_self (by decide) hfits.1 (by have := hfits.2; omega)
    simp only [Payload.format] at hopcode hformat
    simp only [ofWord?, pack, Word.opcode_packS, hopcode]
    simp [fieldsOf, bare, ← hformat, hoffset, -BitVec.toInt_ofInt]
  | b rs1 rs2 offset =>
    obtain ⟨heven, hlow, hhigh⟩ := hfits
    have hoffset : (BitVec.ofInt 13 offset).toInt = offset :=
      BitVec.toInt_ofInt_eq_self (by decide) hlow (by omega)
    simp only [Payload.format] at hopcode hformat
    simp only [ofWord?, pack, Word.opcode_packB, hopcode]
    simp [fieldsOf, bare, ← hformat, even_offset_bits 12 heven, hoffset, -BitVec.toInt_ofInt]
  | u rd immediate =>
    simp only [Payload.format] at hopcode hformat
    simp only [ofWord?, pack, Word.opcode_packU, hopcode]
    simp [fieldsOf, bare, ← hformat]
  | j rd offset =>
    obtain ⟨heven, hlow, hhigh⟩ := hfits
    have hoffset : (BitVec.ofInt 21 offset).toInt = offset :=
      BitVec.toInt_ofInt_eq_self (by decide) hlow (by omega)
    simp only [Payload.format] at hopcode hformat
    simp only [ofWord?, pack, Word.opcode_packJ, hopcode]
    simp [fieldsOf, bare, ← hformat, even_offset_bits 20 heven, hoffset, -BitVec.toInt_ofInt]

/-- What the fields of a word denote as operands. The immediate of format U is written without a
sign. -/
def payload (f : Fields) : Payload :=
  match f.format with
  | .i => .i f.rd f.rs1 f.immediate
  | .s => .s f.rs2 f.rs1 f.immediate
  | .b => .b f.rs1 f.rs2 f.immediate
  | .u => .u f.rd (BitVec.ofInt 32 f.immediate).toNat
  | .j => .j f.rd f.immediate
  | _ => .r f.rd f.rs1 f.rs2

structure OfWord (f : Fields) (w : Word) : Prop where
  opcode : f.opcode = w.opcode
  format : Format.ofOpcode? (f.opcode.setWidth 8) = some f.format
  fits : f.payload.Fits

theorem toInt_short (x : BitVec 12) : -2048 ≤ x.toInt ∧ x.toInt ≤ 2047 := by
  have hlow := x.le_toInt
  have hhigh := x.toInt_lt
  omega

theorem toInt_even {n : Nat} (x : BitVec n) : (x ++ 0#1).toInt % 2 = 0 := by
  rw [BitVec.toInt_append_zero]
  omega

theorem ofWord_of_eq_some {w : Word} {f : Fields} (h : ofWord? w = some f) : f.OfWord w := by
  unfold ofWord? at h
  split at h
  case h_1 hformat =>
    cases h
    exact ⟨rfl, hformat, trivial⟩
  case h_2 hformat =>
    cases h
    unfold ofWordI
    dsimp only
    split
    · refine ⟨rfl, hformat, ?_⟩
      have hamount := w.rs2.isLt
      change -2048 ≤ (w.rs2.toNat : Int) ∧ (w.rs2.toNat : Int) ≤ 2047
      omega
    · exact ⟨rfl, hformat, toInt_short _⟩
  case h_3 hformat =>
    cases h
    exact ⟨rfl, hformat, toInt_short _⟩
  case h_4 hformat =>
    cases h
    refine ⟨rfl, hformat, toInt_even _, w.immediateB.le_toInt, ?_⟩
    have hhigh := w.immediateB.toInt_lt
    change w.immediateB.toInt ≤ 4095
    omega
  case h_5 hformat =>
    cases h
    exact ⟨rfl, hformat, trivial⟩
  case h_6 hformat =>
    cases h
    refine ⟨rfl, hformat, toInt_even _, w.immediateJ.le_toInt, ?_⟩
    have hhigh := w.immediateJ.toInt_lt
    change w.immediateJ.toInt ≤ 1048575
    omega
  case h_7 => simp at h
  case h_8 => simp at h

end Fields

namespace Descriptor

structure Agrees (d : Descriptor) (f : Fields) : Prop where
  opcode : d.opcode = f.opcode.setWidth 8
  funct3 : f.format ≠ .u → f.format ≠ .j → d.funct3 = f.funct3.setWidth 8
  funct7 : f.format = .r ∨ f.format = .i ∧ f.isShift → d.funct7 = f.funct7.setWidth 8

theorem widened_beq (code known : BitVec 3) :
    (code.setWidth 8 == known.setWidth 8) = (code == known) := by
  revert code known
  decide

theorem Agrees.isShift_eq {d : Descriptor} {f : Fields} (h : d.Agrees f) (hi : f.format = .i) :
    d.isShift = f.isShift := by
  have hfunct3 := h.funct3 (by simp [hi]) (by simp [hi])
  rw [isShift, Fields.isShift, h.opcode, hfunct3]
  rw [← widened_beq f.funct3 0b001, ← widened_beq f.funct3 0b101]
  rfl

/-- Packing what was read from a word gives the word. -/
theorem pack_payload {d : Descriptor} {f : Fields} {w : Word} (hw : Fields.ofWord? w = some f)
    (hd : d.Agrees f) : d.pack f.payload = w := by
  unfold Fields.ofWord? at hw
  split at hw
  case h_1 =>
    cases hw
    have hopcode : d.opcode = w.opcode.setWidth 8 := hd.opcode
    have hfunct3 : d.funct3 = w.funct3.setWidth 8 := hd.funct3 nofun nofun
    have hfunct7 : d.funct7 = w.funct7.setWidth 8 := hd.funct7 (.inl rfl)
    simp [Fields.payload, pack, hopcode, hfunct3, hfunct7, Word.packR_fields]
  case h_2 =>
    cases hw
    unfold Fields.ofWordI at hd ⊢
    dsimp only at hd ⊢
    split at hd
    · next hshift =>
      have hopcode : d.opcode = w.opcode.setWidth 8 := hd.opcode
      have hfunct3 : d.funct3 = w.funct3.setWidth 8 := hd.funct3 nofun nofun
      have hfunct7 : d.funct7 = w.funct7.setWidth 8 := hd.funct7 (.inr ⟨rfl, hshift⟩)
      have hd' : d.isShift = true := (hd.isShift_eq rfl).trans hshift
      simp [hshift, Fields.payload, pack, hopcode, hfunct3, hfunct7, immediateBits, hd',
        Word.packI_shift_fields]
    · next hshift =>
      have hopcode : d.opcode = w.opcode.setWidth 8 := hd.opcode
      have hfunct3 : d.funct3 = w.funct3.setWidth 8 := hd.funct3 nofun nofun
      have hd' : d.isShift = false := (hd.isShift_eq rfl).trans (Bool.not_eq_true _ ▸ hshift)
      simp [hshift, Fields.payload, pack, hopcode, hfunct3, immediateBits, hd',
        Word.packI_fields]
  case h_3 =>
    cases hw
    have hopcode : d.opcode = w.opcode.setWidth 8 := hd.opcode
    have hfunct3 : d.funct3 = w.funct3.setWidth 8 := hd.funct3 nofun nofun
    simp [Fields.payload, pack, hopcode, hfunct3, Word.packS_fields]
  case h_4 =>
    cases hw
    have hopcode : d.opcode = w.opcode.setWidth 8 := hd.opcode
    have hfunct3 : d.funct3 = w.funct3.setWidth 8 := hd.funct3 nofun nofun
    simp [Fields.payload, pack, hopcode, hfunct3, Word.packB_fields]
  case h_5 =>
    cases hw
    have hopcode : d.opcode = w.opcode.setWidth 8 := hd.opcode
    simp [Fields.payload, pack, hopcode, Word.packU_fields]
  case h_6 =>
    cases hw
    have hopcode : d.opcode = w.opcode.setWidth 8 := hd.opcode
    simp [Fields.payload, pack, hopcode, Word.packJ_fields]
  case h_7 => simp at hw
  case h_8 => simp at hw

/-- A well-formed descriptor agrees with the words it makes. -/
theorem agrees_fieldsOf {d : Descriptor} (hd : d.WellFormed) {p : Payload}
    (hformat : p.format = d.format) : d.Agrees (d.fieldsOf p) := by
  have hopcode := hd.opcode_roundtrip.symm
  have hfunct3 := hd.funct3_roundtrip.symm
  have hfunct7 := hd.funct7_roundtrip.symm
  cases p with
  | r rd rs1 rs2 => exact ⟨hopcode, fun _ _ => hfunct3, fun _ => hfunct7⟩
  | i rd rs1 immediate =>
    by_cases h : d.isShift
    · simp only [fieldsOf, h, if_true]
      exact ⟨hopcode, fun _ _ => hfunct3, fun _ => hfunct7⟩
    · simp only [fieldsOf, h, if_false, Bool.false_eq_true]
      refine ⟨hopcode, fun _ _ => hfunct3, ?_⟩
      rintro (hr | ⟨-, hs⟩)
      · exact absurd (hformat.trans hr) nofun
      · exact absurd ((hd.isShift_eq rfl rfl).symm.trans hs) h
  | s rs2 rs1 offset =>
    refine ⟨hopcode, fun _ _ => hfunct3, ?_⟩
    simp [fieldsOf, ← hformat, Payload.format]
  | b rs1 rs2 offset =>
    refine ⟨hopcode, fun _ _ => hfunct3, ?_⟩
    simp [fieldsOf, ← hformat, Payload.format]
  | u rd immediate =>
    refine ⟨hopcode, fun hu _ => absurd hformat.symm hu, ?_⟩
    simp [fieldsOf, ← hformat, Payload.format]
  | j rd offset =>
    refine ⟨hopcode, fun _ hj => absurd hformat.symm hj, ?_⟩
    simp [fieldsOf, ← hformat, Payload.format]

end Descriptor

end Rv32i
