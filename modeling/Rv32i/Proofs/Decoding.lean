import Rv32i.Disassembly
import Rv32i.Proofs.Operand
import Rv32i.Proofs.Word.Fields

/-!
# Decoding and encoding are inverse

The fields of an encoded instruction are the codes of its descriptor and what its operands denote.
The fields of a word, written out as operands of a descriptor with their codes, encode to the word,
also where no mnemonic has these codes.
-/

set_option autoImplicit false

namespace Rv32i

open Text (ofString)

namespace Descriptor

/-- The registers and the immediate of the fields are what the operands denote, in the order in
which the format takes them. Whatever the format does not carry is zero. -/
def Denotes (d : Descriptor) (operands : List Text) (pc : Address) (symbols : SymbolTable)
    (f : Fields) : Prop :=
  match d.format with
  | .r => ∃ rd rs1 rs2, operands = [rd, rs1, rs2] ∧ Register.parse rd = .ok f.rd ∧
      Register.parse rs1 = .ok f.rs1 ∧ Register.parse rs2 = .ok f.rs2 ∧ f.immediate = 0
  | .i => f.rs2 = 0 ∧
      if d.isLoad then
        ∃ rd memory, operands = [rd, memory] ∧ Register.parse rd = .ok f.rd ∧
          MemoryOperand.parse memory = .ok ⟨f.immediate, f.rs1⟩
      else
        ∃ rd rs1 immediate v, operands = [rd, rs1, immediate] ∧ Register.parse rd = .ok f.rd ∧
          Register.parse rs1 = .ok f.rs1 ∧ Immediate.resolve immediate symbols = .ok v ∧
          f.immediate = if d.isShift then v % 32 else v
  | .s => ∃ rs2 memory, operands = [rs2, memory] ∧ Register.parse rs2 = .ok f.rs2 ∧
      MemoryOperand.parse memory = .ok ⟨f.immediate, f.rs1⟩ ∧ f.rd = 0
  | .b => ∃ rs1 rs2 target, operands = [rs1, rs2, target] ∧ Register.parse rs1 = .ok f.rs1 ∧
      Register.parse rs2 = .ok f.rs2 ∧ Target.resolve target pc symbols = .ok f.immediate ∧
      f.rd = 0
  | .u => ∃ rd immediate v, operands = [rd, immediate] ∧ Register.parse rd = .ok f.rd ∧
      Immediate.resolve immediate symbols = .ok v ∧
      f.immediate = (BitVec.ofInt 32 v &&& 0xfffff000#32).toInt ∧ f.rs1 = 0 ∧ f.rs2 = 0
  | .j => ∃ rd target, operands = [rd, target] ∧ Register.parse rd = .ok f.rd ∧
      Target.resolve target pc symbols = .ok f.immediate ∧ f.rs1 = 0 ∧ f.rs2 = 0
  | .unassigned => False

/-- The fields hold the codes of the descriptor, as far as its format has room for them, and what
the operands denote. -/
structure Carries (d : Descriptor) (operands : List Text) (pc : Address) (symbols : SymbolTable)
    (f : Fields) : Prop where
  format : f.format = d.format
  opcode : f.opcode.setWidth 8 = d.opcode
  funct3 : f.funct3.setWidth 8 = if d.format = .u ∨ d.format = .j then 0 else d.funct3
  funct7 : f.funct7.setWidth 8 = if d.format = .r ∨ d.isShift = true then d.funct7 else 0
  operands : d.Denotes operands pc symbols f

variable {d : Descriptor} {operands : List Text} {pc : Address} {symbols : SymbolTable}

theorem upper_bits (x : BitVec 32) : x.extractLsb' 12 20 ++ 0#12 = x &&& 0xfffff000#32 := by
  have hsplit : x = x.extractLsb' 12 20 ++ x.extractLsb' 0 12 :=
    ((Word.cuts_join x 0 12 20).trans BitVec.extractLsb'_eq_self).symm
  have hmask : 0xfffff000#32 = BitVec.allOnes 20 ++ 0#12 := rfl
  conv_rhs => rw [hsplit, hmask, BitVec.and_append, BitVec.and_allOnes, BitVec.and_zero]

theorem isShift_of_isLoad (h : d.isLoad = true) : d.isShift = false := by
  have hopcode : d.opcode = Opcode.load := by simpa [isLoad] using h
  rw [isShift, hopcode]
  rfl

/-- Only immediates have shifts among them, which are of format I. -/
theorem WellFormed.format_of_isShift (hd : d.WellFormed) (h : d.isShift = true) :
    d.format = .i := by
  have hopcode : d.opcode = Opcode.immediate := by
    simp only [isShift, Bool.and_eq_true, beq_iff_eq] at h
    exact h.1
  have hformat := hd.format
  rw [hopcode] at hformat
  exact (Option.some.inj hformat).symm

theorem denotes_fieldsOf {p : Payload} (h : d.resolve operands pc symbols = .ok p) :
    d.Denotes operands pc symbols (d.fieldsOf p) := by
  unfold resolve at h
  unfold Denotes
  cases hformat : d.format with
  | r =>
    simp only [hformat] at h
    obtain ⟨rd, rs1, rs2, a, b, c, rfl, ha, hb, hc, rfl⟩ := Payload.resolveR_eq_ok.1 h
    exact ⟨rd, rs1, rs2, rfl, ha, hb, hc, rfl⟩
  | i =>
    simp only [hformat] at h
    by_cases hload : d.isLoad
    · have hshift := isShift_of_isLoad hload
      rw [if_pos hload] at h
      obtain ⟨rd, memory, a, m, rfl, ha, hm, -, rfl⟩ := Payload.resolveLoad_eq_ok.1 h
      simp only [fieldsOf, hshift, hload, if_true, if_false, Bool.false_eq_true]
      exact ⟨rfl, rd, memory, rfl, ha, hm⟩
    · rw [if_neg hload] at h
      obtain ⟨rd, rs1, immediate, a, b, v, rfl, ha, hb, hv, -, rfl⟩ :=
        Payload.resolveI_eq_ok.1 h
      by_cases hshift : d.isShift
      · simp only [fieldsOf, hshift, hload, if_true]
        exact ⟨rfl, rd, rs1, immediate, v, rfl, ha, hb, hv, rfl⟩
      · simp only [fieldsOf, hshift, hload]
        exact ⟨rfl, rd, rs1, immediate, v, rfl, ha, hb, hv, rfl⟩
  | s =>
    simp only [hformat] at h
    obtain ⟨rs2, memory, a, m, rfl, ha, hm, -, rfl⟩ := Payload.resolveS_eq_ok.1 h
    exact ⟨rs2, memory, rfl, ha, hm, rfl⟩
  | b =>
    simp only [hformat] at h
    obtain ⟨rs1, rs2, target, a, b, v, rfl, ha, hb, hv, -, -, rfl⟩ := Payload.resolveB_eq_ok.1 h
    exact ⟨rs1, rs2, target, rfl, ha, hb, hv, rfl⟩
  | u =>
    simp only [hformat] at h
    obtain ⟨rd, immediate, a, v, rfl, ha, hv, rfl⟩ := Payload.resolveU_eq_ok.1 h
    exact ⟨rd, immediate, v, rfl, ha, hv, congrArg BitVec.toInt (upper_bits _), rfl, rfl⟩
  | j =>
    simp only [hformat] at h
    obtain ⟨rd, target, a, v, rfl, ha, hv, -, -, rfl⟩ := Payload.resolveJ_eq_ok.1 h
    exact ⟨rd, target, rfl, ha, hv, rfl, rfl⟩
  | unassigned => simp [hformat] at h

theorem format_fieldsOf (p : Payload) : (d.fieldsOf p).format = d.format := by
  cases p with
  | i rd rs1 immediate => by_cases h : d.isShift <;> simp [fieldsOf, h]
  | _ => rfl

section Codes

variable (hd : d.WellFormed) {p : Payload} (hformat : p.format = d.format)
include hd hformat

theorem funct3_fieldsOf : (d.fieldsOf p).funct3.setWidth 8 =
    if d.format = .u ∨ d.format = .j then 0 else d.funct3 := by
  have hcode := hd.funct3_roundtrip
  rw [← hformat]
  cases p with
  | i rd rs1 immediate => by_cases h : d.isShift <;> simp [fieldsOf, Payload.format, h, hcode]
  | u rd immediate => simp [fieldsOf, Payload.format, Fields.bare]
  | j rd offset => simp [fieldsOf, Payload.format, Fields.bare]
  | _ => simp [fieldsOf, Payload.format, hcode]

theorem funct7_fieldsOf : (d.fieldsOf p).funct7.setWidth 8 =
    if d.format = .r ∨ d.isShift = true then d.funct7 else 0 := by
  have hcode := hd.funct7_roundtrip
  cases p with
  | r rd rs1 rs2 => simp [fieldsOf, ← hformat, Payload.format, hcode]
  | i rd rs1 immediate =>
    by_cases h : d.isShift
    · simp [fieldsOf, h, hcode]
    · simp [fieldsOf, h, ← hformat, Payload.format, Fields.bare]
  | _ =>
    have hshift : ¬ d.isShift = true := by
      intro h
      have himmediate := hformat.trans (hd.format_of_isShift h)
      simp [Payload.format] at himmediate
    simp [fieldsOf, hshift, ← hformat, Payload.format, Fields.bare]

theorem opcode_fieldsOf : (d.fieldsOf p).opcode.setWidth 8 = d.opcode :=
  (agrees_fieldsOf hd hformat).opcode.symm

end Codes

/-- Decoding undoes encoding: the word of an instruction has the fields that its descriptor and its
operands call for. This holds of all descriptors whose codes are in their places, those of the table
among them. -/
theorem decode_undoes_encode :
    (∀ d ∈ table, d.fixed = none → d.WellFormed) ∧
    ∀ (d : Descriptor) (operands : List Text) (pc : Address) (symbols : SymbolTable) (w : Word),
      d.fixed = none → d.WellFormed → d.encode operands pc symbols = .ok w →
      ∃ f, Fields.ofWord? w = some f ∧ d.Carries operands pc symbols f := by
  constructor
  · intro d hd _
    exact wellFormed_of_mem hd
  · intro d operands pc symbols w hfixed hd hw
    obtain ⟨p, hresolve, rfl⟩ := (encode_eq_ok_of_written hfixed).1 hw
    obtain ⟨hformat, hfits⟩ := resolve_ok hresolve
    refine ⟨d.fieldsOf p, Fields.ofWord?_pack hd hformat hfits, ?_⟩
    exact ⟨format_fieldsOf p, opcode_fieldsOf hd hformat, funct3_fieldsOf hd hformat,
      funct7_fieldsOf hd hformat, denotes_fieldsOf hresolve⟩

/-- A shift that is in no table, by an amount that is cut to five bits, and a branch back to a
label. -/
theorem decode_undoes_encode_at :
    (∃ f, Fields.ofWord? 0xfff15093 = some f ∧
      Carries ⟨[], .i, Opcode.immediate, 0b101, 0b1111111, none⟩
        (["ra", "x2", "-1"].map ofString) 8 .empty f) ∧
    ∃ f, Fields.ofWord? 0xfe628ce3 = some f ∧
      Carries (branch "beq" 0b000) (["t0", "t1", "loop"].map ofString) 8
        (.ofList [(ofString "loop", 0)]) f := by
  have hshift : (encode ⟨[], .i, Opcode.immediate, 0b101, 0b1111111, none⟩
      (["ra", "x2", "-1"].map ofString) 8 .empty).toOption = some 0xfff15093 := by decide
  have hbranch : ((branch "beq" 0b000).encode (["t0", "t1", "loop"].map ofString) 8
      (.ofList [(ofString "loop", 0)])).toOption = some 0xfe628ce3 := by decide
  obtain ⟨htable, hcarries⟩ := decode_undoes_encode
  constructor
  · exact hcarries _ _ _ _ _ rfl ⟨rfl, by decide, by decide⟩ (toOption_eq_some.1 hshift)
  · exact hcarries _ _ _ _ _ rfl (htable _ (by decide) rfl) (toOption_eq_some.1 hbranch)

end Descriptor

namespace Fields

open Register (Spelling)

def isLoad (f : Fields) : Bool := f.opcode.setWidth 8 == Opcode.load

def descriptor (f : Fields) (mnemonic : Text) : Descriptor :=
  ⟨mnemonic, f.format, f.opcode.setWidth 8, f.funct3.setWidth 8, f.funct7.setWidth 8, none⟩

def spelled (f : Fields) (isLoad : Bool) (s : Nat → Spelling) : List Text :=
  match f.format with
  | .r => [f.rd.spelled (s 0), f.rs1.spelled (s 1), f.rs2.spelled (s 2)]
  | .i =>
    if isLoad then [f.rd.spelled (s 0), MemoryOperand.spelled f.immediate f.rs1 (s 1)]
    else [f.rd.spelled (s 0), f.rs1.spelled (s 1), f.writeImmediate]
  | .s => [f.rs2.spelled (s 0), MemoryOperand.spelled f.immediate f.rs1 (s 1)]
  | .b => [f.rs1.spelled (s 0), f.rs2.spelled (s 1), f.writeImmediate]
  | .u => [f.rd.spelled (s 0), writeHex (BitVec.ofInt 32 f.immediate)]
  | .j => [f.rd.spelled (s 0), f.writeImmediate]
  | .unassigned => []

theorem writeHex_plain (w : Word) : (writeHex w).Plain :=
  Text.Plain.append (s := ofString "0x") ⟨by decide, by decide⟩
    (Numeral.digits_plain (by decide) (by decide) w.toNat).2

theorem OfWord.assigned {f : Fields} {w : Word} (h : f.OfWord w) : f.format ≠ .unassigned := by
  have hall : ∀ opcode : BitVec 8, Format.ofOpcode? opcode ≠ some .unassigned := by decide
  exact fun hf => hall _ (hf ▸ h.format)

end Fields

namespace Descriptor

variable {d : Descriptor} {f : Fields} {w : Word}

/-- The operands denote the fields they were written from. -/
theorem resolve_spelled (hf : f.OfWord w) (hformat : d.format = f.format)
    (s : Nat → Register.Spelling) (pc : Address) :
    d.resolve (f.spelled d.isLoad s) pc .empty = .ok f.payload := by
  have hassigned := hf.assigned
  have hfits := hf.fits
  have hname (r : Register) (k : Nat) := r.parse_spelled (s k)
  have hplain : f.writeImmediate.Plain := Numeral.signed_plain f.immediate
  -- All immediates are far below the bounds of the readers.
  have hlimit : int64Bound = 0x8000000000000000 := rfl
  have himmediate (low : -1048576 ≤ f.immediate) (high : f.immediate ≤ 1048576) :
      Literal.parse? f.writeImmediate = some f.immediate :=
    Literal.parse?_signed (by omega)
  have hmemory (low : -2048 ≤ f.immediate) (high : f.immediate ≤ 2047) :
      MemoryOperand.parse (MemoryOperand.spelled f.immediate f.rs1 (s 1)) =
        .ok ⟨f.immediate, f.rs1⟩ :=
    MemoryOperand.parse_spelled (by simp [isInt64]; omega) f.rs1 (s 1)
  unfold resolve Fields.spelled
  rw [hformat]
  unfold Fields.payload at hfits ⊢
  cases hcase : f.format with
  | r =>
    exact Payload.resolveR_eq_ok.2
      ⟨_, _, _, _, _, _, rfl, hname _ 0, hname _ 1, hname _ 2, rfl⟩
  | i =>
    simp only [hcase] at hfits
    by_cases hload : d.isLoad
    · simp only [hload, if_true]
      exact Payload.resolveLoad_eq_ok.2
        ⟨_, _, _, _, rfl, hname _ 0, hmemory hfits.1 hfits.2, hfits, rfl⟩
    · have hvalue := Immediate.resolve_empty hplain.trim_eq
        (himmediate (by have := hfits.1; omega) (by have := hfits.2; omega))
      simp only [hload, if_false, Bool.false_eq_true]
      exact Payload.resolveI_eq_ok.2
        ⟨_, _, _, _, _, _, rfl, hname _ 0, hname _ 1, hvalue, hfits, rfl⟩
  | s =>
    simp only [hcase] at hfits
    exact Payload.resolveS_eq_ok.2
      ⟨_, _, _, _, rfl, hname _ 0, hmemory hfits.1 hfits.2, hfits, rfl⟩
  | b =>
    simp only [hcase] at hfits
    obtain ⟨heven, hrange⟩ := hfits
    have hvalue := Target.resolve_empty (himmediate (by omega) (by omega)) pc
    exact Payload.resolveB_eq_ok.2
      ⟨_, _, _, _, _, _, rfl, hname _ 0, hname _ 1, hvalue, heven, hrange, rfl⟩
  | u =>
    have hbound := (BitVec.ofInt 32 f.immediate).isLt
    have hvalue := Immediate.resolve_empty (Fields.writeHex_plain _).trim_eq
      (Literal.parse?_hexadecimal (n := (BitVec.ofInt 32 f.immediate).toNat) (by omega))
    exact Payload.resolveU_eq_ok.2 ⟨_, _, _, _, rfl, hname _ 0, hvalue, rfl⟩
  | j =>
    simp only [hcase] at hfits
    obtain ⟨heven, hrange⟩ := hfits
    have hvalue := Target.resolve_empty (himmediate (by omega) (by omega)) pc
    exact Payload.resolveJ_eq_ok.2 ⟨_, _, _, _, rfl, hname _ 0, hvalue, heven, hrange, rfl⟩
  | unassigned => exact absurd hcase hassigned

theorem encode_spelled (hw : Fields.ofWord? w = some f) (hfixed : d.fixed = none)
    (hformat : d.format = f.format) (hagrees : d.Agrees f) (s : Nat → Register.Spelling)
    (pc : Address) : d.encode (f.spelled d.isLoad s) pc .empty = .ok w := by
  rw [encode_eq_ok_of_written hfixed]
  exact ⟨f.payload, resolve_spelled (Fields.ofWord_of_eq_some hw) hformat s pc,
    pack_payload hw hagrees⟩

end Descriptor

namespace Fields

theorem encode_descriptor {f : Fields} {w : Word} (h : ofWord? w = some f) (mnemonic : Text)
    (s : Nat → Register.Spelling) (pc : Address) :
    (f.descriptor mnemonic).encode (f.spelled f.isLoad s) pc .empty = .ok w := by
  have hagrees : (f.descriptor mnemonic).Agrees f := ⟨rfl, fun _ _ => rfl, fun _ => rfl⟩
  exact Descriptor.encode_spelled h rfl rfl hagrees s pc

/-- Decoding loses no bit: whatever is read from a word, written as operands of a descriptor with
its codes, encodes to the word again. So two words with the same fields are one. -/
theorem encode_undoes_decode :
    (∀ (w : Word) (f : Fields), ofWord? w = some f →
      ∀ (mnemonic : Text) (s : Nat → Register.Spelling) (pc : Address),
        (f.descriptor mnemonic).encode (f.spelled f.isLoad s) pc .empty = .ok w) ∧
    ∀ (w w' : Word), (ofWord? w).isSome → ofWord? w = ofWord? w' → w = w' := by
  constructor
  · intro w f h mnemonic s pc
    exact encode_descriptor h mnemonic s pc
  · intro w w' hsome heq
    obtain ⟨f, hf⟩ := Option.isSome_iff_exists.1 hsome
    have hw := encode_descriptor hf [] (fun _ => .byName) 0
    have hw' := encode_descriptor (heq.symm.trans hf) [] (fun _ => .byName) 0
    exact Except.ok.inj (hw.symm.trans hw')

/-- A shift with a `funct7` that no mnemonic has. -/
theorem encode_undoes_decode_unlisted :
    ∃ f, ofWord? 0xfff15093 = some f ∧
      (∀ d ∈ Descriptor.table, d.describes f = false) ∧
      f.spelled f.isLoad (fun _ => .byNumber) = ["x1", "x2", "31"].map ofString ∧
      (f.descriptor []).encode (["x1", "x2", "31"].map ofString) 12 .empty = .ok 0xfff15093 := by
  have hsome : ofWord? 0xfff15093 =
    some ⟨.i, 0b0010011, 1, 2, 0, 0b101, 0b1111111, 31⟩ := by decide
  have htext : spelled ⟨.i, 0b0010011, 1, 2, 0, 0b101, 0b1111111, 31⟩
      false (fun _ => .byNumber) = ["x1", "x2", "31"].map ofString := by decide
  refine ⟨_, hsome, by decide, htext, ?_⟩
  rw [← htext]
  exact encode_undoes_decode.1 _ _ hsome [] _ 12

end Fields

end Rv32i
