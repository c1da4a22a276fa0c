import Rv32i.Program
import Rv32i.Proofs.Decoding
import Rv32i.Proofs.Source.Line

/-!
# Disassembly is exact

The words that some instruction encodes to are written as lines that are read back as that word,
wherever they stand. All other words are shown as data, which no line of a program can be.
-/

set_option autoImplicit false

namespace Rv32i

open Text (ofString)

namespace Fields

def operands (f : Fields) (isLoad : Bool) : List Text :=
  match f.format with
  | .r => [f.rd.name, f.rs1.name, f.rs2.name]
  | .i =>
    if isLoad then [f.rd.name, f.writeMemory] else [f.rd.name, f.rs1.name, f.writeImmediate]
  | .s => [f.rs2.name, f.writeMemory]
  | .b => [f.rs1.name, f.rs2.name, f.writeImmediate]
  | .u => [f.rd.name, writeHex (BitVec.ofInt 32 f.immediate)]
  | .j => [f.rd.name, f.writeImmediate]
  | .unassigned => []

theorem operands_eq_spelled (f : Fields) (isLoad : Bool) :
    f.operands isLoad = f.spelled isLoad fun _ => .byName := by
  unfold operands spelled
  cases f.format <;> rfl

def comment (f : Fields) (pc : Address) : Text :=
  match f.format with
  | .b | .j => ofString " # " ++ writeHex (pc + BitVec.ofInt 32 f.immediate)
  | _ => []

theorem listed_writeOperands (f : Fields) (isLoad : Bool) (pc : Address) :
    Instruction.listed (f.writeOperands isLoad pc) =
      Instruction.listed (f.operands isLoad) ++ f.comment pc := by
  have hlast (init : List Text) (last t : Text) :
      Instruction.listed (init ++ [last ++ t]) = Instruction.listed (init ++ [last]) ++ t :=
    (Text.intercalate_concat_append _ init last t).symm
  unfold writeOperands operands comment writeTransfer
  cases f.format with
  | b =>
    rw [List.append_assoc]
    exact hlast [f.rs1.name, f.rs2.name] _ _
  | j =>
    rw [List.append_assoc]
    exact hlast [f.rd.name] _ _
  | _ => exact (List.append_nil _).symm

theorem comment_blank (f : Fields) (pc : Address) : (f.comment pc).beforeComment.Blank := by
  unfold comment
  cases f.format with
  | b => exact List.forall_mem_singleton.2 rfl
  | j => exact List.forall_mem_singleton.2 rfl
  | _ => exact List.forall_mem_nil _

theorem operands_plain (f : Fields) (isLoad : Bool) : ∀ op ∈ f.operands isLoad, op.Plain := by
  have hname := Register.name_plain
  have himmediate : f.writeImmediate.Plain := Numeral.signed_plain f.immediate
  have hmemory : f.writeMemory.Plain := MemoryOperand.spelled_plain f.immediate f.rs1 .byName
  unfold operands
  cases f.format with
  | i => cases isLoad <;> simp [hname, himmediate, hmemory]
  | _ => simp [hname, himmediate, hmemory, writeHex_plain]

end Fields

namespace Descriptor

variable {d : Descriptor} {f : Fields} {w : Word}

theorem describes_iff : d.describes f = true ↔ d.fixed = none ∧ d.Agrees f := by
  have hagrees : d.Agrees f ↔ d.opcode = f.opcode.setWidth 8 ∧
      (f.format ≠ .u → f.format ≠ .j → d.funct3 = f.funct3.setWidth 8) ∧
      (f.format = .r ∨ f.format = .i ∧ f.isShift → d.funct7 = f.funct7.setWidth 8) :=
    ⟨fun h => ⟨h.opcode, h.funct3, h.funct7⟩, fun h => ⟨h.1, h.2.1, h.2.2⟩⟩
  rw [hagrees]
  unfold describes
  cases f.format with
  | i => cases f.isShift <;> simp [and_assoc]
  | _ => simp [and_assoc]

theorem Agrees.format_eq (h : d.Agrees f) (hd : d.WellFormed) (hf : f.OfWord w) :
    d.format = f.format := by
  have hformat := hd.format
  rw [h.opcode, hf.format] at hformat
  exact (Option.some.inj hformat).symm

def written (d : Descriptor) (f : Fields) : Text :=
  d.mnemonic ++ .scalar ' ' :: Instruction.listed (f.operands d.isLoad)

theorem write_eq (d : Descriptor) (f : Fields) (pc : Address) :
    d.write f pc = d.written f ++ f.comment pc := by
  have hlisted := f.listed_writeOperands d.isLoad pc
  rw [Instruction.listed] at hlisted
  rw [write, hlisted]
  simp [written]

theorem mark_not_mem_written (hd : d.mnemonic.Plain) : .scalar '#' ∉ d.written f := by
  have hlisted : .scalar '#' ∉ Instruction.listed (f.operands d.isLoad) :=
    Instruction.not_mem_listed (by decide) (by decide) fun op hop =>
      (f.operands_plain d.isLoad op hop).not_mem rfl
  simp [written, hd.not_mem (g := .scalar '#') rfl, hlisted]

theorem beforeComment_write (hd : d.mnemonic.Plain) (pc : Address) :
    (d.write f pc).beforeComment = d.written f ++ (f.comment pc).beforeComment := by
  rw [write_eq, Text.beforeComment_append (mark_not_mem_written hd)]

theorem parse_write (hd : d ∈ table) (f : Fields) (pc : Address) :
    Line.parse (d.write f pc) = .ok ⟨none, some ⟨d, f.operands d.isLoad⟩⟩ := by
  obtain ⟨hmnemonic, hfind⟩ := spelled_of_mem hd
  have hplain := f.operands_plain d.isLoad
  have hseparable : Instruction.Separable (f.operands d.isLoad) := fun op hop =>
    ⟨Text.squeezed_of_isField (hplain op hop).isField, (hplain op hop).not_mem rfl⟩
  have hempty : f.operands d.isLoad ≠ [[]] := by
    intro h
    exact (hplain [] (by simp [h])).1 rfl
  exact Line.parse_written hfind hmnemonic hseparable hempty (f.comment_blank pc)
    (beforeComment_write hmnemonic pc)

theorem parse_mnemonic (hd : d ∈ table) : Line.parse d.mnemonic = .ok ⟨none, some ⟨d, []⟩⟩ := by
  obtain ⟨hmnemonic, hfind⟩ := spelled_of_mem hd
  have hfields : d.mnemonic.beforeComment.fields = [d.mnemonic] := by
    rw [Text.beforeComment_of_not_mem (hmnemonic.not_mem rfl),
      Text.fields_of_isField hmnemonic.isField]
  exact Line.parse_of_fields hfields (Statement.hasColon_of_plain hmnemonic) hfind

theorem encode_operands (hd : d ∈ table) (hw : Fields.ofWord? w = some f)
    (h : d.describes f = true) (pc : Address) :
    d.encode (f.operands d.isLoad) pc .empty = .ok w := by
  obtain ⟨hfixed, hagrees⟩ := describes_iff.1 h
  have hformat := hagrees.format_eq (wellFormed_of_mem hd) (Fields.ofWord_of_eq_some hw)
  rw [Fields.operands_eq_spelled]
  exact encode_spelled hw hfixed hformat hagrees _ pc

def bareNames : List String := ["nop", "ecall", "ebreak"]

theorem fixed_iff (hd : d ∈ table) :
    d.fixed ≠ none ↔ ∃ name ∈ bareNames, find? (ofString name) = some d := by
  have hall : ∀ d ∈ table, d.fixed ≠ none ↔
      ∃ name ∈ bareNames, find? (ofString name) = some d := by decide
  exact hall d hd

/-- The place of an instruction without operands does not matter. -/
theorem encode_fixed (hd : d ∈ table) (hfixed : d.fixed ≠ none) (symbols : SymbolTable)
    (pc pc' : Address) : d.encode [] pc symbols = d.encode [] pc' symbols := by
  have hall : ∀ d ∈ table, d.fixed ≠ none → d.format = .i := by decide
  simp only [encode, resolve, hall d hd hfixed]

theorem mem_constants {mnemonic : Text} : (w, mnemonic) ∈ constants ↔
    ∃ d ∈ table, d.fixed ≠ none ∧ d.encode [] 0 .empty = .ok w ∧ d.mnemonic = mnemonic := by
  rw [constants, List.mem_filterMap]
  refine exists_congr fun d => and_congr_right fun _ => ?_
  cases d.fixed <;> cases d.encode [] 0 .empty <;> simp

theorem lookup_constants_eq_none : constants.lookup w = none ↔
    ∀ d ∈ table, d.fixed ≠ none → d.encode [] 0 .empty ≠ .ok w := by
  rw [List.lookup_eq_none_iff]
  constructor
  · intro h d hd hfixed hw
    have hne := h (w, d.mnemonic) (mem_constants.2 ⟨d, hd, hfixed, hw, rfl⟩)
    simp at hne
  · rintro h ⟨w', mnemonic⟩ hmem
    obtain ⟨d, hd, hfixed, hw, -⟩ := mem_constants.1 hmem
    rw [bne_iff_ne]
    rintro rfl
    exact h d hd hfixed hw

end Descriptor

namespace Word

/-- The word is the encoding of some instruction. The mnemonics that are written without operands
count with the words that they have where no label is defined. -/
def IsInstruction (w : Word) : Prop :=
  (∃ d ∈ Descriptor.table, d.fixed = none ∧
    ∃ operands pc symbols, d.encode operands pc symbols = .ok w) ∨
  ∃ name ∈ Descriptor.bareNames, ∃ d, Descriptor.find? (ofString name) = some d ∧
    ∃ pc, d.encode [] pc .empty = .ok w

/-- The same in terms of what disassembly looks at. -/
theorem isInstruction_iff {w : Word} : w.IsInstruction ↔
    Descriptor.constants.lookup w ≠ none ∨
    ∃ f, Fields.ofWord? w = some f ∧ ∃ d ∈ Descriptor.table, d.describes f = true := by
  constructor
  · rintro (⟨d, hd, hfixed, operands, pc, symbols, hw⟩ | ⟨name, hname, d, hfind, pc, hw⟩)
    · obtain ⟨p, hresolve, rfl⟩ := (Descriptor.encode_eq_ok_of_written hfixed).1 hw
      obtain ⟨hformat, hfits⟩ := Descriptor.resolve_ok hresolve
      have hwell := Descriptor.wellFormed_of_mem hd
      exact .inr ⟨d.fieldsOf p, Fields.ofWord?_pack hwell hformat hfits, d, hd,
        Descriptor.describes_iff.2 ⟨hfixed, Descriptor.agrees_fieldsOf hwell hformat⟩⟩
    · have hd : d ∈ Descriptor.table := List.mem_of_find?_eq_some hfind
      have hfixed := (Descriptor.fixed_iff hd).2 ⟨name, hname, hfind⟩
      rw [Descriptor.encode_fixed hd hfixed .empty pc 0] at hw
      exact .inl fun hnone => Descriptor.lookup_constants_eq_none.1 hnone d hd hfixed hw
  · rintro (hconstant | ⟨f, hf, d, hd, hdescribes⟩)
    · rw [Ne, Descriptor.lookup_constants_eq_none] at hconstant
      push Not at hconstant
      obtain ⟨d, hd, hfixed, hw⟩ := hconstant
      obtain ⟨name, hname, hfind⟩ := (Descriptor.fixed_iff hd).1 hfixed
      exact .inr ⟨name, hname, d, hfind, 0, hw⟩
    · have hfixed := (Descriptor.describes_iff.1 hdescribes).1
      exact .inl ⟨d, hd, hfixed, f.operands d.isLoad, 0, .empty,
        Descriptor.encode_operands hd hf hdescribes 0⟩

instance (w : Word) : Decidable w.IsInstruction :=
  decidable_of_iff (Descriptor.constants.lookup w ≠ none ∨
    (Fields.ofWord? w).any (fun f => Descriptor.table.any (·.describes f)) = true) <| by
      simp [isInstruction_iff, Option.any_eq_true]

theorem disassemble_of_isInstruction {w : Word} (h : w.IsInstruction) (pc : Address) :
    ∃ d ∈ Descriptor.table, d.mnemonic <+: w.disassemble pc ∧
      ∃ operands, Line.parse (w.disassemble pc) = .ok ⟨none, some ⟨d, operands⟩⟩ ∧
        ∀ pc', d.encode operands pc' .empty = .ok w := by
  unfold disassemble
  cases hconstant : Descriptor.constants.lookup w with
  | some mnemonic =>
    obtain ⟨before, after, hsplit, -⟩ := List.lookup_eq_some_iff.1 hconstant
    obtain ⟨d, hd, hfixed, hw, rfl⟩ := Descriptor.mem_constants.1
      (hsplit ▸ List.mem_append_right before List.mem_cons_self)
    exact ⟨d, hd, List.prefix_rfl, [], Descriptor.parse_mnemonic hd,
      fun pc' => Descriptor.encode_fixed hd hfixed .empty pc' 0 ▸ hw⟩
  | none =>
    -- The word is no constant, so some descriptor describes it, and one is found.
    obtain hne | ⟨f, hf, d', hd', hdescribes'⟩ := isInstruction_iff.1 h
    · exact absurd hconstant hne
    simp only [hf]
    cases hfind : Descriptor.table.find? (·.describes f) with
    | none => exact absurd hdescribes' (List.find?_eq_none.1 hfind d' hd')
    | some d =>
      have hd := List.mem_of_find?_eq_some hfind
      have hdescribes := List.find?_some hfind
      refine ⟨d, hd, ⟨_, (List.append_assoc _ _ _).symm⟩, f.operands d.isLoad,
        Descriptor.parse_write hd f pc, Descriptor.encode_operands hd hf hdescribes⟩

theorem disassemble_of_not_isInstruction {w : Word} (h : ¬ w.IsInstruction) (pc : Address) :
    w.disassemble pc = w.asData := by
  rw [isInstruction_iff] at h
  push Not at h
  obtain ⟨hconstant, hdescribes⟩ := h
  unfold disassemble
  rw [hconstant]
  cases hf : Fields.ofWord? w with
  | none => rfl
  | some f => simp only [List.find?_eq_none.2 (hdescribes f hf)]

theorem asData_fields (w : Word) :
    ∃ rest, w.asData.beforeComment.fields = ofString ".word" :: rest := by
  have htext : w.asData =
      ofString ".word" ++ .scalar ' ' :: (ofString "0x" ++ Numeral.places 16 8 w.toNat) := rfl
  have hplain : ∀ g ∈ Numeral.places 16 8 w.toNat, Text.isPlainGlyph g = true := fun g hg =>
    Numeral.isPlainGlyph_of_isDigit (by decide) (Numeral.isDigit_of_mem_places (by decide) hg)
  have hdigits : .scalar '#' ∉ Numeral.places 16 8 w.toNat := fun hg =>
    absurd (hplain _ hg) (by decide)
  have hmark : .scalar '#' ∉ w.asData := by
    rw [asData, List.mem_append]
    exact fun hg => hg.elim (by decide) hdigits
  have hword : Text.Plain (ofString ".word") := ⟨by decide, by decide⟩
  rw [Text.beforeComment_of_not_mem hmark, htext, Text.fields_append_of_blank _ _ rfl,
    Text.fields_of_isField hword.isField]
  exact ⟨_, rfl⟩

end Word

/-- A line with an unknown mnemonic passes the survey and ends the emission. -/
theorem Program.assemble_of_unknown {raw mnemonic : Text} {rest : List Text}
    (h : raw.beforeComment.fields = mnemonic :: rest)
    (hcolon : Statement.hasColon mnemonic = false) (hd : Descriptor.find? mnemonic = none) :
    assemble [raw] = .error ((Fault.unknownMnemonic mnemonic).locate 1 raw) := by
  have hstatement := Statement.ofLine_of_fields h hcolon
  have hparse := Line.parse_of_unknown h hcolon hd
  simp [assemble, survey, emit, Survey.read, Survey.step, Survey.define, Emission.read,
    Emission.step, hstatement, hparse, bind, Except.bind, pure, Except.pure, Except.mapError]

/-- Disassembly inverts encoding: the encoding of an instruction is written as a line that encodes
to it again at any address, and every other word as data, which does not assemble. -/
theorem Word.disassemble_inverts_encode (w : Word) (pc : Address) :
    (w.IsInstruction →
      ¬ ofString ".word" <+: w.disassemble pc ∧
      ∃ d operands, Line.parse (w.disassemble pc) = .ok ⟨none, some ⟨d, operands⟩⟩ ∧
        ∀ pc', d.encode operands pc' .empty = .ok w) ∧
    (¬ w.IsInstruction →
      (∃ digits, w.disassemble pc = ofString ".word 0x" ++ digits ∧ digits.length = 8 ∧
        (∀ g ∈ digits, g ∈ ofString "0123456789abcdef") ∧
        Numeral.value? 16 digits = some w.toNat) ∧
      ∃ e, Program.assemble [w.disassemble pc] = .error e ∧ e.fault.kind = .syntaxError) := by
  constructor
  · intro h
    obtain ⟨d, hd, hstart, operands, hparse, hencode⟩ := disassemble_of_isInstruction h pc
    have hall : ∀ d ∈ Descriptor.table, d.mnemonic.head? ≠ some (.scalar '.') := by
      decide
    refine ⟨?_, d, operands, hparse, hencode⟩
    rintro ⟨rest', hword⟩
    obtain ⟨rest, hmnemonic⟩ := hstart
    have hhead : (d.mnemonic ++ rest).head? = d.mnemonic.head? :=
      List.head?_append_of_ne_nil _ (Descriptor.spelled_of_mem hd).1.1
    apply hall d hd
    rw [← hhead, hmnemonic, ← hword]
    rfl
  · intro h
    rw [disassemble_of_not_isInstruction h pc]
    constructor
    · have hdigit : ∀ d < 16, .scalar (Nat.digitChar d) ∈ ofString "0123456789abcdef" := by
        decide
      refine ⟨Numeral.places 16 8 w.toNat, rfl, Numeral.length_places 16 8 _, ?_,
        Numeral.value?_places (by decide) (by decide) w.isLt⟩
      intro g hg
      obtain ⟨d, hd, rfl⟩ := Numeral.isDigit_of_mem_places (by decide) hg
      exact hdigit d hd
    · obtain ⟨rest, hfields⟩ := w.asData_fields
      exact ⟨_, Program.assemble_of_unknown hfields (by decide) (by decide), rfl⟩

/-- A branch back from address 8, and a word with no instruction's `funct7`. -/
theorem Word.disassemble_inverts_encode_at :
    (IsInstruction 0xfe628ce3 ∧
      ∃ d operands, Line.parse (disassemble 0xfe628ce3 8) = .ok ⟨none, some ⟨d, operands⟩⟩ ∧
        ∀ pc', d.encode operands pc' .empty = .ok 0xfe628ce3) ∧
    (¬ IsInstruction 0x02628033 ∧
      ∃ e, Program.assemble [disassemble 0x02628033 8] = .error e ∧
        e.fault.kind = .syntaxError) := by
  have hbranch : IsInstruction 0xfe628ce3 := by decide
  have hdata : ¬ IsInstruction 0x02628033 := by decide
  exact ⟨⟨hbranch, ((disassemble_inverts_encode 0xfe628ce3 8).1 hbranch).2⟩,
    hdata, ((disassemble_inverts_encode 0x02628033 8).2 hdata).2⟩

end Rv32i
