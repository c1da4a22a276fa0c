import Rv32i.Proofs.Disassembly
import Rv32i.Proofs.Program.Constants

/-!
# Reassembly

The lines of a disassembled program assemble to its words again, without any label, if all its words
are instructions. Words that are not come only from `ecall` and `ebreak` whose immediate a label has
changed; then the lines do not assemble at all.
-/

set_option autoImplicit false

namespace Rv32i

open Text (ofString)

theorem SymbolTable.eq_empty {s : SymbolTable} (h : ∀ name, s.get? name = none) : s = .empty := by
  obtain ⟨entries, hdistinct⟩ := s
  cases entries with
  | nil => rfl
  | cons e entries =>
    have hget := h e.1
    simp [get?] at hget

namespace Word

theorem parse_asData (w : Word) :
    Line.parse w.asData = .error (.unknownMnemonic (ofString ".word")) := by
  obtain ⟨rest, hfields⟩ := w.asData_fields
  exact Line.parse_of_unknown hfields (by decide) (by decide)

/-- Every word is written as an instruction without a label, if perhaps an unknown one. -/
theorem ofLine_disassemble (w : Word) (pc : Address) :
    ∃ statement, Statement.ofLine (w.disassemble pc) = .ok statement ∧
      statement.label = none ∧ Line.isInstruction (w.disassemble pc) = true := by
  by_cases h : w.IsInstruction
  · obtain ⟨d, -, -, operands, hparse, -⟩ := disassemble_of_isInstruction h pc
    obtain ⟨statement, hstatement, hlabel, -⟩ := Line.parse_eq_ok.1 hparse
    exact ⟨statement, hstatement, hlabel.symm, Line.isInstruction_of_parse hparse⟩
  · rw [disassemble_of_not_isInstruction h pc]
    obtain ⟨rest, hfields⟩ := w.asData_fields
    have hstatement := Statement.ofLine_of_fields hfields (by decide)
    refine ⟨_, hstatement, rfl, ?_⟩
    rw [Line.isInstruction_of_ok hstatement]
    have hbody : w.asData.withoutComment ≠ [] := by
      intro hnil
      rw [← Text.fields_withoutComment, hnil] at hfields
      simp [Text.fields_nil] at hfields
    simpa using hbody

end Word

namespace Program

section Lines

variable (p : Program)

theorem getElem?_disassembly (k : Nat) :
    p.disassembly[k]? = p.words[k]?.map fun w => w.value.disassemble w.address := by
  rw [disassembly, List.getElem?_map]

theorem instructionLines_disassembly : instructionLines p.disassembly = p.disassembly := by
  apply List.filter_eq_self.2
  intro raw hraw
  obtain ⟨w, -, rfl⟩ := List.mem_map.1 hraw
  obtain ⟨_, -, -, hinstruction⟩ := w.value.ofLine_disassemble w.address
  exact hinstruction

theorem labelAt_disassembly (i : Nat) : labelAt p.disassembly i = none := by
  rw [labelAt, getElem?_disassembly]
  cases p.words[i]? with
  | none => rfl
  | some w =>
    obtain ⟨statement, hstatement, hlabel, -⟩ := w.value.ofLine_disassemble w.address
    exact (Line.labelOf_of_ok hstatement).trans hlabel

theorem statements_disassembly :
    ∀ raw ∈ p.disassembly, ∃ statement, Statement.ofLine raw = .ok statement := by
  intro raw hraw
  obtain ⟨w, -, rfl⟩ := List.mem_map.1 hraw
  obtain ⟨statement, hstatement, -, -⟩ := w.value.ofLine_disassemble w.address
  exact ⟨statement, hstatement⟩

end Lines

variable {p : Program}

theorem realizes_disassembly (hplace : p.Contiguous)
    (h : ∀ w ∈ p.words, w.value.IsInstruction) : Realizes ⟨p.words, .empty⟩ p.disassembly where
  statements := p.statements_disassembly
  count := by rw [instructionLines_disassembly, disassembly, List.length_map]
  words k raw hraw := by
    rw [instructionLines_disassembly, getElem?_disassembly] at hraw
    obtain ⟨w, hw, rfl⟩ := Option.map_eq_some_iff.1 hraw
    obtain ⟨d, -, -, operands, hparse, hencode⟩ :=
      Word.disassemble_of_isInstruction (h w (List.mem_of_getElem? hw)) w.address
    exact ⟨w, hw, none, d, operands, hparse, hplace k w hw, hencode _⟩
  symbols name address := by simp [labelAt_disassembly]
  unique i j name hi := by simp [labelAt_disassembly] at hi

theorem reassemble_of_instructions (hplace : p.Contiguous)
    (h : ∀ w ∈ p.words, w.value.IsInstruction) :
    assemble p.disassembly = .ok ⟨p.words, .empty⟩ := by
  obtain ⟨⟨words, symbols⟩, hp, rfl, hget⟩ := assemble_of_realizes (realizes_disassembly hplace h)
  have hempty : symbols = .empty := SymbolTable.eq_empty hget
  rw [hp, hempty]

theorem get?_survey_disassembly {s : Survey} (hs : s.After p.disassembly) (name : Text) :
    s.symbols.get? name = none := by
  apply Option.eq_none_iff_forall_ne_some.2
  intro address haddress
  obtain ⟨i, hi, -⟩ := hs.get?_symbols.1 haddress
  simp [labelAt_disassembly] at hi

/-- Only data can stop the lines of a disassembled program. -/
theorem syntaxError_of_read {symbols : SymbolTable} (hsymbols : ∀ name, symbols.get? name = none)
    {raw : Text} (hraw : raw ∈ p.disassembly) {e : Emission} {fault : LocatedFault}
    (h : e.read symbols raw = .error fault) : fault.fault.kind = .syntaxError := by
  obtain ⟨w, -, rfl⟩ := List.mem_map.1 hraw
  by_cases hw : w.value.IsInstruction
  · obtain ⟨d, -, -, operands, hparse, hencode⟩ := Word.disassemble_of_isInstruction hw w.address
    have hvalue : d.encode operands e.pc symbols = .ok w.value :=
      (Descriptor.encode_congr hsymbols).trans (hencode e.pc)
    have hstep := Emission.step_eq_ok.2 (.inr ⟨none, d, operands, _, hparse, hvalue, rfl⟩)
    rw [Emission.read, hstep] at h
    cases h
  · rw [Word.disassemble_of_not_isInstruction hw, Emission.read, Emission.step,
      Word.parse_asData] at h
    cases h
    rfl

theorem reassemble_of_data {w : PlacedWord} (hw : w ∈ p.words) (h : ¬ w.value.IsInstruction) :
    ∃ e, assemble p.disassembly = .error e ∧ e.fault.kind = .syntaxError := by
  obtain ⟨s, hs, hsAfter⟩ := survey_succeeds p.statements_disassembly
    fun i j name hi => by simp [labelAt_disassembly] at hi
  cases hemit : emit s.symbols p.disassembly with
  | ok e =>
    obtain ⟨k, hk⟩ := List.getElem?_of_mem hw
    have hraw : (instructionLines p.disassembly)[k]? = some w.value.asData := by
      rw [instructionLines_disassembly, getElem?_disassembly, hk, Option.map_some,
        Word.disassemble_of_not_isInstruction h]
    obtain ⟨_, -, _, _, _, hparse, -⟩ := (emit_after hemit).words k _ hraw
    rw [Word.parse_asData] at hparse
    cases hparse
  | error e =>
    obtain ⟨raw, hraw, e', hread⟩ := foldlM_error hemit
    refine ⟨e, ?_, syntaxError_of_read (get?_survey_disassembly hsAfter) hraw hread⟩
    rw [assemble, hs]
    simp only [bind, Except.bind, hemit]

end Program

namespace Bare

variable {b : Bare} {symbols : SymbolTable}

def WrittenOn (b : Bare) (raw : Text) : Prop :=
  ∃ label operands, Line.parse raw = .ok ⟨label, some ⟨b.descriptor, operands⟩⟩

def LabelAtZero (b : Bare) (symbols : SymbolTable) : Prop :=
  ∀ address, symbols.get? b.label = some address → address = 0

theorem exists_of_fixed {d : Descriptor} (hd : d ∈ Descriptor.table) (h : d.fixed ≠ none) :
    ∃ b ∈ all, d = b.descriptor := by
  have hall : ∀ d ∈ Descriptor.table, d.fixed ≠ none → ∃ b ∈ all, d = b.descriptor := by
    decide
  exact hall d hd h

theorem descriptor_inj {b' : Bare} (hb : b ∈ all) (hb' : b' ∈ all) :
    b.descriptor = b'.descriptor ↔ b = b' := by
  have hall : ∀ b ∈ all, ∀ b' ∈ all, b.descriptor = b'.descriptor ↔ b = b' := by decide
  exact hall b hb b' hb'

/-- Of the words with the opcode of `ecall` and `ebreak` only their own are instructions. -/
theorem isInstruction_wordWith_iff (hb : b.opcode = Opcode.system) {n : Nat} (hn : n ≤ 2047) :
    (b.wordWith n).IsInstruction ↔ n = 0 ∨ n = 1 := by
  constructor
  · intro h
    obtain hconstant | ⟨f, hf, d, hd, hdescribes⟩ := Word.isInstruction_iff.1 h
    · rw [Ne, Descriptor.lookup_constants_eq_none] at hconstant
      push Not at hconstant
      obtain ⟨d, hd, hfixed, hw⟩ := hconstant
      obtain ⟨b', hb', rfl⟩ := exists_of_fixed hd hfixed
      have hknown := known_of_mem hb'
      rw [(hknown.encode_eq_word_iff .empty 0).2 nofun] at hw
      have hvalue : b'.value = n := eq_of_wordWith_eq hknown.short hn (Except.ok.inj hw)
      have hall : ∀ b' ∈ all, b'.value = 0 ∨ b'.value = 1 := by decide
      exact hvalue ▸ hall b' hb'
    · -- No instruction that is written with operands has this opcode.
      obtain ⟨hfixed, hagrees⟩ := Descriptor.describes_iff.1 hdescribes
      have hopcode : f.opcode = Opcode.system.setWidth 7 := by
        rw [(Fields.ofWord_of_eq_some hf).opcode, wordWith, Word.opcode_packI, hb]
      have hall : ∀ d ∈ Descriptor.table, d.fixed = none → d.opcode ≠ Opcode.system := by
        decide
      exact absurd (hagrees.opcode.trans (hopcode ▸ rfl)) (hall d hd hfixed)
  · have hzero : (ecall.wordWith 0).IsInstruction := by decide
    have hone : (ecall.wordWith 1).IsInstruction := by decide
    rintro (rfl | rfl)
    · rw [wordWith, hb]
      exact hzero
    · rw [wordWith, hb]
      exact hone

/-- Whatever `nop` is encoded to, `addi` can be. -/
theorem isInstruction_nop {pc : Address} {w : Word}
    (h : nop.descriptor.encode [] pc symbols = .ok w) : w.IsInstruction := by
  have haddi : .immediate "addi" 0b000 0b0000000 ∈ Descriptor.table := by decide
  exact .inl ⟨_, haddi, rfl, ["x0", "x0", "0"].map ofString, pc, symbols, h⟩

def system : List Bare := [ecall, ebreak]

theorem mem_all_of_mem_system (hb : b ∈ system) : b ∈ all := List.mem_cons_of_mem nop hb

theorem isInstruction_system_iff (hb : b ∈ system)
    (haligned : ∀ address, symbols.get? b.label = some address → address.toNat % 4 = 0)
    {pc : Address} {w : Word} (h : b.descriptor.encode [] pc symbols = .ok w) :
    w.IsInstruction ↔ b.LabelAtZero symbols := by
  have hall : ∀ b ∈ system, b.opcode = Opcode.system ∧ (b.value = 0 ∨ b.value = 1) := by decide
  obtain ⟨hopcode, hvalue⟩ := hall b hb
  rw [(known_of_mem (mem_all_of_mem_system hb)).encode_eq] at h
  by_cases hshort : b.denoted symbols ≤ 2047
  · rw [if_pos hshort, Except.ok.injEq] at h
    rw [← h, isInstruction_wordWith_iff hopcode hshort]
    unfold denoted LabelAtZero
    cases hget : symbols.get? b.label with
    | none => simpa using hvalue
    | some address =>
      have hmod := haligned address hget
      have hzero : address = 0 ↔ address.toNat = 0 := BitVec.toNat_inj.symm
      simp only [Option.map_some, Option.getD_some, Option.some.injEq, forall_eq', hzero]
      omega
  · rw [if_neg hshort] at h
    cases h

end Bare

namespace Program

open Bare (ecall ebreak)

variable {lines : List Text} {p : Program}

theorem Realizes.address_aligned (h : p.Realizes lines) {name : Text} {address : Address}
    (haddress : p.symbols.get? name = some address) : address.toNat % 4 = 0 := by
  obtain ⟨i, -, rfl⟩ := (h.symbols name address).1 haddress
  exact wordAddress_aligned _

/-- A line emits an instruction unless it is an `ecall` or `ebreak` whose immediate is moved. -/
theorem Realizes.isInstruction_iff (h : p.Realizes lines) {k : Nat} {raw : Text} {w : PlacedWord}
    (hw : Emits p.symbols k raw w) :
    w.value.IsInstruction ↔ ∀ b ∈ Bare.system, b.WrittenOn raw → b.LabelAtZero p.symbols := by
  obtain ⟨label, d, operands, hparse, -, hvalue⟩ := hw
  have hd := Line.mem_table_of_parse hparse
  have hwritten (b : Bare) : b.WrittenOn raw ↔ d = b.descriptor := by
    constructor
    · rintro ⟨_, _, hparse'⟩
      cases hparse.symm.trans hparse'
      rfl
    · rintro rfl
      exact ⟨label, operands, hparse⟩
  simp only [hwritten]
  by_cases hfixed : d.fixed = none
  · have hother : ∀ b ∈ Bare.system, d ≠ b.descriptor := by
      rintro b - rfl
      cases hfixed
    exact ⟨fun _ b hb heq => absurd heq (hother b hb),
      fun _ => .inl ⟨d, hd, hfixed, operands, _, _, hvalue⟩⟩
  · obtain ⟨b, hb, rfl⟩ := Bare.exists_of_fixed hd hfixed
    cases Bare.operands_of_encode hvalue
    have hsame : ∀ b' ∈ Bare.system, b.descriptor = b'.descriptor ↔ b = b' := fun b' hb' =>
      Bare.descriptor_inj hb (Bare.mem_all_of_mem_system hb')
    rcases List.mem_cons.1 hb with rfl | hsystem
    · have hother : ∀ b' ∈ Bare.system, Bare.nop ≠ b' := by decide
      exact ⟨fun _ b' hb' heq => absurd ((hsame b' hb').1 heq) (hother b' hb'),
        fun _ => Bare.isInstruction_nop hvalue⟩
    · rw [Bare.isInstruction_system_iff hsystem (fun _ => h.address_aligned) hvalue]
      exact ⟨fun hzero b' hb' heq => (hsame b' hb').1 heq ▸ hzero, fun hall => hall b hsystem rfl⟩

theorem Realizes.instructions_iff (h : p.Realizes lines) :
    (∀ w ∈ p.words, w.value.IsInstruction) ↔
      ∀ b ∈ Bare.system, ∀ raw ∈ lines, b.WrittenOn raw → b.LabelAtZero p.symbols := by
  constructor
  · intro hwords b hb raw hraw hwritten
    have hinstruction : Line.isInstruction raw = true := by
      obtain ⟨_, _, hparse⟩ := hwritten
      exact Line.isInstruction_of_parse hparse
    obtain ⟨k, hk⟩ := List.getElem?_of_mem (List.mem_filter.2 ⟨hraw, hinstruction⟩)
    obtain ⟨w, hw, hemits⟩ := h.words k raw hk
    exact (h.isInstruction_iff hemits).1 (hwords w (List.mem_of_getElem? hw)) b hb hwritten
  · intro hlabels w hw
    obtain ⟨k, hk⟩ := List.getElem?_of_mem hw
    obtain ⟨raw, hraw, hemits⟩ := h.line_of_word hk
    have hmem : raw ∈ lines := (List.mem_filter.1 (List.mem_of_getElem? hraw)).1
    exact (h.isInstruction_iff hemits).2 fun b hb => hlabels b hb raw hmem

/-- The lines of a disassembled program assemble to the same words, without labels, exactly if the
labels that can take the place of the immediates of `ecall` and `ebreak` are not defined at other
addresses than zero where these are used. Otherwise one of the lines is no instruction. -/
theorem reassemble_iff (lines : List Text) (p : Program) (h : assemble lines = .ok p) :
    (assemble p.disassembly = .ok ⟨p.words, .empty⟩ ↔
      ∀ b ∈ [ecall, ebreak], ∀ raw ∈ lines, b.WrittenOn raw →
        ∀ address, p.symbols.get? b.label = some address → address = 0) ∧
    (assemble p.disassembly ≠ .ok ⟨p.words, .empty⟩ →
      ∃ e, assemble p.disassembly = .error e ∧ e.fault.kind = .syntaxError) := by
  have hp := realizes_of_assemble h
  have hlabels := hp.instructions_iff
  by_cases hwords : ∀ w ∈ p.words, w.value.IsInstruction
  · have hagain := reassemble_of_instructions hp.contiguous hwords
    exact ⟨iff_of_true hagain (hlabels.1 hwords), fun hne => absurd hagain hne⟩
  · have hshadowed := mt hlabels.2 hwords
    push Not at hwords
    obtain ⟨w, hw, hdata⟩ := hwords
    obtain ⟨e, he, hkind⟩ := reassemble_of_data hw hdata
    have hfails : assemble p.disassembly ≠ .ok ⟨p.words, .empty⟩ := by
      rw [he]
      nofun
    exact ⟨iff_of_false hfails hshadowed, fun _ => ⟨e, he, hkind⟩⟩

/-- A loop is reassembled; an `ecall` after a label `0` at address 4 is not. -/
theorem reassemble_iff_at :
    (∃ p, assemble (["loop: addi x1, x1, 1", "bne x1, x2, loop", "ecall"].map ofString) = .ok p ∧
      assemble p.disassembly = .ok ⟨p.words, .empty⟩) ∧
    ∃ p, assemble (["addi x1, x1, 1", "0: ecall"].map ofString) = .ok p ∧
      ∃ e, assemble p.disassembly = .error e ∧ e.fault.kind = .syntaxError := by
  constructor
  · have hok : (assemble (["loop: addi x1, x1, 1", "bne x1, x2, loop", "ecall"].map
        ofString)).toOption.isSome = true := by decide
    obtain ⟨p, hp⟩ := exists_eq_ok hok
    refine ⟨p, hp, (reassemble_iff _ p hp).1.2 fun b hb _ _ _ address haddress => ?_⟩
    obtain ⟨i, hi, -⟩ := ((realizes_of_assemble hp).symbols _ _).1 haddress
    have hnone : ∀ b ∈ [ecall, ebreak], ∀ i < 3, labelAt (["loop: addi x1, x1, 1",
      "bne x1, x2, loop", "ecall"].map ofString) i ≠ some b.label := by decide
    exact absurd hi (hnone b hb i (lt_of_labelAt hi))
  · have hok : (assemble (["addi x1, x1, 1", "0: ecall"].map
        ofString)).toOption.isSome = true := by decide
    obtain ⟨p, hp⟩ := exists_eq_ok hok
    obtain ⟨hsame, hfails⟩ := reassemble_iff _ p hp
    refine ⟨p, hp, hfails fun hagain => ?_⟩
    have hlabel : p.symbols.get? ecall.label = some 4 :=
      ((realizes_of_assemble hp).symbols _ _).2 ⟨1, by decide, by decide⟩
    have hparse : (Line.parse (ofString "0: ecall")).toOption =
        some ⟨some (ofString "0"), some ⟨ecall.descriptor, []⟩⟩ := by decide
    have hzero := hsame.1 hagain ecall (by simp) (ofString "0: ecall") (by simp)
      ⟨_, _, toOption_eq_some.1 hparse⟩ 4 hlabel
    exact absurd hzero (by decide)

end Program

end Rv32i
