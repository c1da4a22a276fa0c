import Mathlib.Data.List.Nodup
import Rv32i.Proofs.Decoding

/-!
# Different instructions have different words

A word tells which instruction it encodes: its descriptor, the registers that the operands name and
as much of the immediate as the format keeps. Operands that agree in these have the same word.
-/

set_option autoImplicit false

namespace Rv32i

open Text (ofString)

/-- What the operands of an instruction denote: the registers in the order in which they are written,
and as much of the immediate as the instruction keeps. -/
structure Meaning where
  registers : List Register
  immediate : Option Int
  deriving DecidableEq

namespace Descriptor

/-- Shifts keep their amount modulo 32, and format U keeps the bits from 12 to 31. -/
def kept (d : Descriptor) (immediate : Int) : Int :=
  match d.format with
  | .i => if d.isShift then immediate % 32 else immediate
  | .u => immediate / 4096 % 1048576
  | _ => immediate

def lastMeaning (d : Descriptor) (token : Text) (pc : Address) (symbols : SymbolTable) :
    Except Fault Meaning :=
  let memory := (MemoryOperand.parse token).map fun m => ⟨[m.base], some (d.kept m.offset)⟩
  let immediate := (Immediate.resolve token symbols).map fun v => ⟨[], some (d.kept v)⟩
  let target := (Target.resolve token pc symbols).map fun v => ⟨[], some (d.kept v)⟩
  match d.format with
  | .r => (Register.parse token).map fun r => ⟨[r], none⟩
  | .i => if d.isLoad then memory else immediate
  | .s => memory
  | .b => target
  | .u => immediate
  | .j => target
  | .unassigned => .error (.unsupportedFormat d.mnemonic d.format)

def meaning? (d : Descriptor) (operands : List Text) (pc : Address) (symbols : SymbolTable) :
    Option Meaning := do
  let token ← operands.getLast?
  let first ← operands.dropLast.mapM fun t => (Register.parse t).toOption
  let last ← (d.lastMeaning token pc symbols).toOption
  return ⟨first ++ last.registers, last.immediate⟩

def meaningOf (d : Descriptor) : Payload → Meaning
  | .r rd rs1 rs2 => ⟨[rd, rs1, rs2], none⟩
  | .i rd rs1 immediate => ⟨[rd, rs1], some (d.kept immediate)⟩
  | .s rs2 rs1 offset => ⟨[rs2, rs1], some (d.kept offset)⟩
  | .b rs1 rs2 offset => ⟨[rs1, rs2], some (d.kept offset)⟩
  | .u rd immediate => ⟨[rd], some (d.kept immediate)⟩
  | .j rd offset => ⟨[rd], some (d.kept offset)⟩

section Operands

variable {d : Descriptor} {operands : List Text} {pc : Address} {symbols : SymbolTable}

/-- Operands that resolve have a meaning. -/
theorem meaning?_of_resolve {p : Payload} (h : d.resolve operands pc symbols = .ok p) :
    d.meaning? operands pc symbols = some (d.meaningOf p) := by
  unfold resolve at h
  cases hformat : d.format with
  | r =>
    simp only [hformat] at h
    obtain ⟨rd, rs1, rs2, a, b, c, rfl, ha, hb, hc, rfl⟩ := Payload.resolveR_eq_ok.1 h
    simp [meaning?, lastMeaning, hformat, ha, hb, hc, Except.toOption, Except.map, meaningOf]
  | i =>
    simp only [hformat] at h
    by_cases hload : d.isLoad
    · rw [if_pos hload] at h
      obtain ⟨rd, memory, a, m, rfl, ha, hm, -, rfl⟩ := Payload.resolveLoad_eq_ok.1 h
      simp [meaning?, lastMeaning, hformat, hload, ha, hm, Except.toOption, Except.map, meaningOf]
    · rw [if_neg hload] at h
      obtain ⟨rd, rs1, immediate, a, b, v, rfl, ha, hb, hv, -, rfl⟩ :=
        Payload.resolveI_eq_ok.1 h
      simp [meaning?, lastMeaning, hformat, hload, ha, hb, hv, Except.toOption, Except.map,
        meaningOf]
  | s =>
    simp only [hformat] at h
    obtain ⟨rs2, memory, a, m, rfl, ha, hm, -, rfl⟩ := Payload.resolveS_eq_ok.1 h
    simp [meaning?, lastMeaning, hformat, ha, hm, Except.toOption, Except.map, meaningOf]
  | b =>
    simp only [hformat] at h
    obtain ⟨rs1, rs2, target, a, b, v, rfl, ha, hb, hv, -, -, rfl⟩ := Payload.resolveB_eq_ok.1 h
    simp [meaning?, lastMeaning, hformat, ha, hb, hv, Except.toOption, Except.map, meaningOf]
  | u =>
    simp only [hformat] at h
    obtain ⟨rd, immediate, a, v, rfl, ha, hv, rfl⟩ := Payload.resolveU_eq_ok.1 h
    simp [meaning?, lastMeaning, hformat, ha, hv, Except.toOption, Except.map, meaningOf]
  | j =>
    simp only [hformat] at h
    obtain ⟨rd, target, a, v, rfl, ha, hv, -, -, rfl⟩ := Payload.resolveJ_eq_ok.1 h
    simp [meaning?, lastMeaning, hformat, ha, hv, Except.toOption, Except.map, meaningOf]
  | unassigned => simp [hformat] at h

end Operands

/-- The bits that format U keeps are those of its field. -/
theorem upper_field_inj {v v' : Int} :
    ((BitVec.ofInt 32 v).extractLsb' 12 20 ++ 0#12).toInt =
        ((BitVec.ofInt 32 v').extractLsb' 12 20 ++ 0#12).toInt ↔
      v / 4096 % 1048576 = v' / 4096 % 1048576 := by
  have hfield (v : Int) : (((BitVec.ofInt 32 v).extractLsb' 12 20).toNat : Int) =
      v / 4096 % 1048576 := by
    rw [BitVec.extractLsb'_toNat, BitVec.toNat_ofInt, Nat.shiftRight_eq_div_pow]
    omega
  rw [BitVec.toInt_inj, ← hfield v, ← hfield v', Int.natCast_inj, BitVec.toNat_inj]
  constructor
  · intro h
    have hupper := congrArg (BitVec.extractLsb' 12 20) h
    rwa [BitVec.extractLsb'_append_eq_left, BitVec.extractLsb'_append_eq_left] at hupper
  · intro h
    rw [h]

/-- The fields of a word hold the meaning of its operands and nothing more. -/
theorem fieldsOf_eq_iff {d : Descriptor} {p p' : Payload} (hp : p.format = d.format)
    (hp' : p'.format = d.format) :
    d.fieldsOf p = d.fieldsOf p' ↔ d.meaningOf p = d.meaningOf p' := by
  have hsame := hp.trans hp'.symm
  cases p with
  | r rd rs1 rs2 =>
    cases p' with
    | r rd' rs1' rs2' => simp [fieldsOf, meaningOf]
    | _ => cases hsame
  | i rd rs1 v =>
    cases p' with
    | i rd' rs1' v' =>
      have hformat : d.format = .i := hp.symm
      by_cases hshift : d.isShift <;> simp [fieldsOf, meaningOf, kept, hformat, hshift, and_assoc]
    | _ => cases hsame
  | s rs2 rs1 v =>
    cases p' with
    | s rs2' rs1' v' =>
      have hformat : d.format = .s := hp.symm
      simp [fieldsOf, meaningOf, kept, hformat, and_assoc, and_left_comm (a := rs1 = rs1')]
    | _ => cases hsame
  | b rs1 rs2 v =>
    cases p' with
    | b rs1' rs2' v' =>
      have hformat : d.format = .b := hp.symm
      simp [fieldsOf, meaningOf, kept, hformat, and_assoc]
    | _ => cases hsame
  | u rd v =>
    cases p' with
    | u rd' v' =>
      have hformat : d.format = .u := hp.symm
      simp [fieldsOf, meaningOf, kept, hformat, upper_field_inj]
    | _ => cases hsame
  | j rd v =>
    cases p' with
    | j rd' v' =>
      have hformat : d.format = .j := hp.symm
      simp [fieldsOf, meaningOf, kept, hformat]
    | _ => cases hsame

def codes (d : Descriptor) : BitVec 8 × BitVec 8 × BitVec 8 :=
  (d.opcode, if d.format = .u ∨ d.format = .j then 0 else d.funct3,
    if d.format = .r ∨ d.isShift = true then d.funct7 else 0)

theorem codes_nodup : ((table.filter fun d => d.fixed.isNone).map codes).Nodup := by decide

/-- No two mnemonics that are written with operands have the same codes. -/
theorem eq_of_codes {d d' : Descriptor} (hd : d ∈ table) (hd' : d' ∈ table)
    (hfixed : d.fixed = none) (hfixed' : d'.fixed = none) (h : d.codes = d'.codes) : d = d' := by
  apply List.inj_on_of_nodup_map codes_nodup
  · exact List.mem_filter.2 ⟨hd, by simp [hfixed]⟩
  · exact List.mem_filter.2 ⟨hd', by simp [hfixed']⟩
  · exact h

theorem codes_of_fieldsOf {d d' : Descriptor} (hd : d.WellFormed) (hd' : d'.WellFormed)
    {p p' : Payload} (hp : p.format = d.format) (hp' : p'.format = d'.format)
    (h : d.fieldsOf p = d'.fieldsOf p') : d.codes = d'.codes := by
  unfold codes
  rw [← opcode_fieldsOf hd hp, ← funct3_fieldsOf hd hp, ← funct7_fieldsOf hd hp, h,
    opcode_fieldsOf hd' hp', funct3_fieldsOf hd' hp', funct7_fieldsOf hd' hp']

/-- A word is determined by its fields. -/
theorem pack_eq_iff {d d' : Descriptor} (hd : d.WellFormed) (hd' : d'.WellFormed) {p p' : Payload}
    (hp : p.format = d.format) (hp' : p'.format = d'.format) (hfits : p.Fits) (hfits' : p'.Fits) :
    d.pack p = d'.pack p' ↔ d.fieldsOf p = d'.fieldsOf p' := by
  have hword := Fields.ofWord?_pack hd hp hfits
  have hword' := Fields.ofWord?_pack hd' hp' hfits'
  constructor
  · intro h
    rw [h, hword'] at hword
    exact (Option.some.inj hword).symm
  · intro h
    -- The fields that both words have can be packed again, which gives either word.
    have hagrees := agrees_fieldsOf hd hp
    calc
      d.pack p = d.pack (d.fieldsOf p).payload := (pack_payload hword hagrees).symm
      _ = d'.pack p' := pack_payload (hword'.trans (congrArg some h.symm)) hagrees

/-- No two different instructions share a word: two encodings are equal exactly if they have the same
descriptor, the same registers in the same places and the same immediate, as far as it is kept. -/
theorem encode_eq_encode_iff (d d' : Descriptor) (hd : d ∈ table) (hd' : d' ∈ table)
    (hfixed : d.fixed = none) (hfixed' : d'.fixed = none) (operands operands' : List Text)
    (pc pc' : Address) (symbols symbols' : SymbolTable) (w w' : Word)
    (hw : d.encode operands pc symbols = .ok w) (hw' : d'.encode operands' pc' symbols' = .ok w') :
    ∃ m m', d.meaning? operands pc symbols = some m ∧
      d'.meaning? operands' pc' symbols' = some m' ∧
      (w = w' ↔ d = d' ∧ m.registers = m'.registers ∧ m.immediate = m'.immediate) := by
  obtain ⟨p, hp, rfl⟩ := (encode_eq_ok_of_written hfixed).1 hw
  obtain ⟨p', hp', rfl⟩ := (encode_eq_ok_of_written hfixed').1 hw'
  obtain ⟨hformat, hfits⟩ := resolve_ok hp
  obtain ⟨hformat', hfits'⟩ := resolve_ok hp'
  have hwell := wellFormed_of_mem hd
  have hwell' := wellFormed_of_mem hd'
  have hmeaning (m m' : Meaning) :
      m = m' ↔ m.registers = m'.registers ∧ m.immediate = m'.immediate := by
    cases m
    cases m'
    simp
  refine ⟨d.meaningOf p, d'.meaningOf p', meaning?_of_resolve hp, meaning?_of_resolve hp', ?_⟩
  rw [pack_eq_iff hwell hwell' hformat hformat' hfits hfits', ← hmeaning]
  constructor
  · intro h
    have hsame := eq_of_codes hd hd' hfixed hfixed' (codes_of_fieldsOf hwell hwell' hformat hformat' h)
    subst hsame
    exact ⟨rfl, (fieldsOf_eq_iff hformat hformat').1 h⟩
  · rintro ⟨rfl, h⟩
    exact (fieldsOf_eq_iff hformat hformat').2 h

/-- A shift by 33 is the shift by 1 under any other spelling. The arithmetic shift by the same amount
has another word. -/
theorem encode_eq_encode_iff_shift :
    (∃ w, (immediate "srli" 0b101 0b0000000).encode (["ra", "sp", "33"].map ofString) 0 .empty =
        .ok w ∧
      (immediate "srli" 0b101 0b0000000).encode (["x1", "x2", "one"].map ofString) 8
        (.ofList [(ofString "one", 1)]) = .ok w) ∧
    ∃ w w', (immediate "srli" 0b101 0b0000000).encode (["ra", "sp", "33"].map ofString) 0 .empty =
        .ok w ∧
      (immediate "srai" 0b101 0b0100000).encode (["ra", "sp", "33"].map ofString) 0 .empty =
        .ok w' ∧ w ≠ w' := by
  have hlogical : ((immediate "srli" 0b101 0b0000000).encode (["ra", "sp", "33"].map ofString) 0
      .empty).toOption.isSome = true := by decide
  have hlabel : ((immediate "srli" 0b101 0b0000000).encode (["x1", "x2", "one"].map ofString) 8
      (.ofList [(ofString "one", 1)])).toOption.isSome = true := by decide
  have harithmetic : ((immediate "srai" 0b101 0b0100000).encode (["ra", "sp", "33"].map ofString) 0
      .empty).toOption.isSome = true := by decide
  obtain ⟨w, hw⟩ := exists_eq_ok hlogical
  obtain ⟨w', hw'⟩ := exists_eq_ok hlabel
  obtain ⟨w'', hw''⟩ := exists_eq_ok harithmetic
  constructor
  · obtain ⟨m, m', hm, hm', hiff⟩ := encode_eq_encode_iff _ _ (by decide) (by decide) rfl rfl
      _ _ _ _ _ _ w w' hw hw'
    have hmeaning : (immediate "srli" 0b101 0b0000000).meaning? (["ra", "sp", "33"].map ofString) 0
        .empty = some ⟨[1, 2], some 1⟩ := by decide
    have hmeaning' : (immediate "srli" 0b101 0b0000000).meaning? (["x1", "x2", "one"].map ofString) 8
        (.ofList [(ofString "one", 1)]) = some ⟨[1, 2], some 1⟩ := by decide
    cases hm.symm.trans hmeaning
    cases hm'.symm.trans hmeaning'
    have hsame : w = w' := hiff.2 ⟨rfl, rfl, rfl⟩
    exact ⟨w, hw, hsame ▸ hw'⟩
  · obtain ⟨m, m', -, -, hiff⟩ := encode_eq_encode_iff _ _ (by decide) (by decide) rfl rfl
      _ _ _ _ _ _ w w'' hw hw''
    refine ⟨w, w'', hw, hw'', fun hsame => ?_⟩
    exact absurd (hiff.1 hsame).1 (by decide)

end Descriptor

end Rv32i
