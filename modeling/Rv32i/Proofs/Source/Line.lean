import Rv32i.Proofs.Except
import Rv32i.Proofs.Text.Blank
import Rv32i.Source.Line

/-!
# Reading lines

How a line is read depends on the fields before its comment only, as long as it has no label. A line
that was written from a mnemonic and squeezed operands is read back as that instruction. Whether a
line holds an instruction can be told from its statement alone.
-/

set_option autoImplicit false

namespace Rv32i

open Text (ofString)

def Text.beforeComment (t : Text) : Text := t.takeWhile (· != .scalar '#')

theorem Text.fields_withoutComment (t : Text) :
    t.withoutComment.fields = t.beforeComment.fields := Text.fields_trim _

theorem Text.beforeComment_append {t : Text} (ht : .scalar '#' ∉ t) (rest : Text) :
    Text.beforeComment (t ++ rest) = t ++ rest.beforeComment := by
  apply List.takeWhile_append_of_pos
  intro g hg
  simpa using fun h : g = .scalar '#' => ht (h ▸ hg)

theorem Text.beforeComment_of_not_mem {t : Text} (ht : .scalar '#' ∉ t) : t.beforeComment = t := by
  have happend := Text.beforeComment_append ht []
  rw [List.append_nil] at happend
  exact happend.trans (List.append_nil t)

theorem Statement.hasColon_of_plain {t : Text} (h : t.Plain) : Statement.hasColon t = false := by
  simpa [hasColon] using h.not_mem (g := .scalar ':') rfl

section Unlabelled

variable {raw mnemonic : Text} {rest : List Text}

theorem Statement.ofLine_of_fields (h : raw.beforeComment.fields = mnemonic :: rest)
    (hcolon : Statement.hasColon mnemonic = false) :
    Statement.ofLine raw = .ok ⟨none, raw.withoutComment⟩ := by
  rw [ofLine, split, Text.fields_withoutComment, h]
  simp [hcolon]

theorem Line.parse_of_fields (h : raw.beforeComment.fields = mnemonic :: rest)
    (hcolon : Statement.hasColon mnemonic = false) {d : Descriptor}
    (hd : Descriptor.find? mnemonic = some d) :
    Line.parse raw = .ok ⟨none, some ⟨d, Instruction.operandsOf rest⟩⟩ := by
  rw [parse, Statement.ofLine_of_fields h hcolon]
  simp [bind, Except.bind, Instruction.parse, Text.fields_withoutComment, h, hd, pure, Except.pure]

theorem Line.parse_of_unknown (h : raw.beforeComment.fields = mnemonic :: rest)
    (hcolon : Statement.hasColon mnemonic = false) (hd : Descriptor.find? mnemonic = none) :
    Line.parse raw = .error (.unknownMnemonic mnemonic) := by
  rw [parse, Statement.ofLine_of_fields h hcolon]
  simp [bind, Except.bind, Instruction.parse, Text.fields_withoutComment, h, hd]

end Unlabelled

namespace Instruction

def pieces (t : Text) : List Text := (t.splitOn (.scalar ',')).map Text.trim

theorem operandsOf_eq (t : Text) :
    operandsOf t.fields = if t.squeeze = [] then [] else pieces t.squeeze := by
  simp only [operandsOf, List.isEmpty_iff]
  rfl

theorem pieces_space (t : Text) : pieces (.scalar ' ' :: t) = pieces t := by
  obtain ⟨first, rest, hsplit⟩ := List.exists_cons_of_ne_nil (List.splitOn_ne_nil (.scalar ',') t)
  rw [pieces, pieces, List.splitOn_cons_eq_if_modifyHead, hsplit]
  simp [Text.trim_cons_of_blank (g := .scalar ' ') rfl]

theorem pieces_append_comma {op : Text} (hop : op.Squeezed) (hcomma : .scalar ',' ∉ op)
    (rest : Text) : pieces (op ++ .scalar ',' :: rest) = op :: pieces rest := by
  rw [pieces, List.splitOn_append_cons_self_of_not_mem hcomma, List.map_cons, hop.trim_eq, pieces]

theorem pieces_of_not_mem {op : Text} (hop : op.Squeezed) (hcomma : .scalar ',' ∉ op) :
    pieces op = [op] := by
  rw [pieces, List.splitOn_eq_singleton hcomma, List.map_singleton, hop.trim_eq]

def listed (operands : List Text) : Text := (ofString ", ").intercalate operands

theorem not_mem_listed {operands : List Text} {g : Glyph} (hcomma : g ≠ .scalar ',')
    (hspace : g ≠ .scalar ' ') (h : ∀ op ∈ operands, g ∉ op) : g ∉ listed operands :=
  Text.not_mem_intercalate (by simp [ofString, hcomma, hspace]) h

def Separable (operands : List Text) : Prop :=
  ∀ op ∈ operands, op.Squeezed ∧ .scalar ',' ∉ op

theorem pieces_squeeze_listed {operands : List Text} (hne : operands ≠ [])
    (h : Separable operands) :
    pieces (listed operands).squeeze = operands := by
  induction operands with
  | nil => exact absurd rfl hne
  | cons op ops ih =>
    obtain ⟨hop, hcomma⟩ := h op List.mem_cons_self
    by_cases hops : ops = []
    · rw [hops, listed, List.intercalate_singleton, hop, pieces_of_not_mem hop hcomma]
    have hrest := ih hops fun op' hop' => h op' (List.mem_cons_of_mem _ hop')
    have hcomma' : Text.Squeezed (op ++ [.scalar ',']) := hop.append_glyph rfl
    have hfields : Text.fields (op ++ [.scalar ',']) ≠ [] := by
      intro hnil
      have hblank := Text.fields_eq_nil_iff.1 hnil (.scalar ',') (by simp)
      exact absurd hblank (by decide)
    have htext : listed (op :: ops) = (op ++ [.scalar ',']) ++ .scalar ' ' :: listed ops := by
      rw [listed, List.intercalate_cons_of_ne_nil hops, List.append_assoc, List.append_assoc]
      rfl
    rw [htext, Text.squeeze_append_of_blank hfields _ rfl, hcomma']
    split
    · next hblank =>
      rw [pieces_append_comma hop hcomma]
      rw [Text.squeeze, hblank] at hrest
      exact congrArg (op :: ·) hrest
    · rw [List.append_assoc, List.singleton_append, pieces_append_comma hop hcomma, pieces_space,
        hrest]

/-- Operands are read back from their text with commas, except for a single empty one, which cannot
be told from none. -/
theorem operandsOf_listed {operands : List Text} (h : Separable operands)
    (hempty : operands ≠ [[]]) :
    operandsOf (listed operands).fields = operands := by
  rw [operandsOf_eq]
  by_cases hne : operands = []
  · rw [hne]
    rfl
  have hpieces := pieces_squeeze_listed hne h
  split
  · next hnil =>
    rw [hnil] at hpieces
    exact absurd hpieces.symm hempty
  · exact hpieces

end Instruction

/-- A descriptor of the table can be written and is found by its mnemonic. -/
theorem Descriptor.spelled_of_mem {d : Descriptor} (h : d ∈ table) :
    d.mnemonic.Plain ∧ find? d.mnemonic = some d := by
  have hall : ∀ d ∈ table, (d.mnemonic ≠ [] ∧ ∀ g ∈ d.mnemonic, Text.isPlainGlyph g = true) ∧
      find? d.mnemonic = some d := by decide
  exact hall d h

/-- Whatever follows the operands may be blank or a comment. -/
theorem Line.parse_written {d : Descriptor} (hd : Descriptor.find? d.mnemonic = some d)
    (hmnemonic : d.mnemonic.Plain) {operands : List Text} (h : Instruction.Separable operands)
    (hempty : operands ≠ [[]]) {rest : Text} (hrest : rest.Blank) {raw : Text}
    (hraw : raw.beforeComment =
      d.mnemonic ++ .scalar ' ' :: Instruction.listed operands ++ rest) :
    Line.parse raw = .ok ⟨none, some ⟨d, operands⟩⟩ := by
  have hfields : raw.beforeComment.fields =
      d.mnemonic :: (Instruction.listed operands).fields := by
    rw [hraw, Text.fields_append_blank hrest, Text.fields_append_of_blank _ _ rfl,
      Text.fields_of_isField hmnemonic.isField, List.singleton_append]
  rw [Line.parse_of_fields hfields (Statement.hasColon_of_plain hmnemonic) hd,
    Instruction.operandsOf_listed h hempty]

namespace Instruction

variable {body : Text}

theorem parse_eq_none : parse body = .ok none ↔ body.fields = [] := by
  unfold parse
  split
  · simp_all
  · split <;> simp_all

theorem parse_eq_some {instruction : Instruction} : parse body = .ok (some instruction) ↔
    ∃ mnemonic rest, body.fields = mnemonic :: rest ∧
      Descriptor.find? mnemonic = some instruction.descriptor ∧
      operandsOf rest = instruction.operands := by
  unfold parse
  split
  · simp_all
  · next mnemonic rest hfields =>
    rw [hfields]
    cases hfind : Descriptor.find? mnemonic with
    | none => simp [hfind]
    | some d =>
      obtain ⟨d', operands⟩ := instruction
      simp [hfind]

theorem parse_eq_error {fault : Fault} (h : parse body = .error fault) :
    ∃ mnemonic, fault = .unknownMnemonic mnemonic := by
  unfold parse at h
  split at h
  · cases h
  · next mnemonic rest _ =>
    split at h
    · cases h
    · cases h
      exact ⟨mnemonic, rfl⟩

end Instruction

namespace Statement

theorem ofLine_eq_error {raw : Text} {fault : Fault} (h : ofLine raw = .error fault) :
    ∃ label, fault = .malformedLabel label := by
  unfold ofLine split at h
  split at h
  · dsimp only at h
    split at h
    · cases h
    · cases h
      exact ⟨_, rfl⟩
  · cases h

theorem ofLine_of_blank {raw : Text} (h : raw.trim = []) : ofLine raw = .ok ⟨none, []⟩ := by
  have hraw : raw.Blank := Text.trim_eq_nil_iff.1 h
  have hbefore : raw.beforeComment.Blank := fun g hg =>
    hraw g ((List.takeWhile_sublist _).subset hg)
  have hnil : raw.withoutComment = [] := Text.trim_eq_nil_iff.2 hbefore
  rw [ofLine, hnil]
  rfl

end Statement

namespace Line

def isInstruction (raw : Text) : Bool :=
  match Statement.ofLine raw with
  | .ok statement => !statement.body.isEmpty
  | .error _ => false

def labelOf (raw : Text) : Option Text :=
  match Statement.ofLine raw with
  | .ok statement => statement.label
  | .error _ => none

variable {raw : Text} {statement : Statement}

theorem isInstruction_of_ok (h : Statement.ofLine raw = .ok statement) :
    isInstruction raw = !statement.body.isEmpty := by
  simp only [isInstruction, h]

theorem labelOf_of_ok (h : Statement.ofLine raw = .ok statement) :
    labelOf raw = statement.label := by
  simp only [labelOf, h]

/-- A body is trimmed, so it has no field only if it has no text. -/
theorem fields_body_eq_nil_iff (h : Statement.ofLine raw = .ok statement) :
    statement.body.fields = [] ↔ statement.body = [] := by
  unfold Statement.ofLine Statement.split at h
  split at h
  · dsimp only at h
    split at h
    · cases h
      exact Text.fields_trim_eq_nil_iff
    · cases h
  · cases h
    exact Text.fields_trim_eq_nil_iff

theorem parse_eq_ok {line : Line} : Line.parse raw = .ok line ↔
    ∃ statement, Statement.ofLine raw = .ok statement ∧ line.label = statement.label ∧
      Instruction.parse statement.body = .ok line.instruction := by
  simp only [parse, bind_eq_ok, pure, Except.pure, Except.ok.injEq]
  constructor
  · rintro ⟨statement, hstatement, instruction, hinstruction, rfl⟩
    exact ⟨statement, hstatement, rfl, hinstruction⟩
  · rintro ⟨statement, hstatement, hlabel, hinstruction⟩
    exact ⟨statement, hstatement, line.instruction, hinstruction, by rw [← hlabel]⟩

theorem parse_eq_error {fault : Fault} (h : Line.parse raw = .error fault) :
    Statement.ofLine raw = .error fault ∨ ∃ mnemonic, fault = .unknownMnemonic mnemonic := by
  rcases bind_eq_error.1 h with hstatement | ⟨statement, -, hrest⟩
  · exact .inl hstatement
  · rcases bind_eq_error.1 hrest with hinstruction | ⟨_, -, hpure⟩
    · exact .inr (Instruction.parse_eq_error hinstruction)
    · cases hpure

/-- Both ways of looking for an instruction agree. -/
theorem isInstruction_of_parse {line : Line} (h : Line.parse raw = .ok line) :
    isInstruction raw = line.instruction.isSome := by
  obtain ⟨statement, hstatement, -, hinstruction⟩ := parse_eq_ok.1 h
  have hnil := fields_body_eq_nil_iff hstatement
  rw [isInstruction_of_ok hstatement]
  cases hcase : line.instruction with
  | none =>
    rw [hcase, Instruction.parse_eq_none, hnil] at hinstruction
    simp [hinstruction]
  | some instruction =>
    rw [hcase, Instruction.parse_eq_some] at hinstruction
    obtain ⟨mnemonic, rest, hfields, -, -⟩ := hinstruction
    have hbody : statement.body ≠ [] := fun hbody => by simp [hnil.2 hbody] at hfields
    simpa using hbody

theorem parse_of_not_isInstruction (h : Statement.ofLine raw = .ok statement)
    (hraw : isInstruction raw = false) : Line.parse raw = .ok ⟨statement.label, none⟩ := by
  have hbody : statement.body = [] := by simpa [isInstruction_of_ok h] using hraw
  exact parse_eq_ok.2 ⟨statement, h, rfl,
    Instruction.parse_eq_none.2 ((fields_body_eq_nil_iff h).2 hbody)⟩

theorem mem_table_of_parse {label : Option Text} {d : Descriptor} {operands : List Text}
    (h : Line.parse raw = .ok ⟨label, some ⟨d, operands⟩⟩) : d ∈ Descriptor.table := by
  obtain ⟨statement, -, -, hinstruction⟩ := parse_eq_ok.1 h
  obtain ⟨mnemonic, rest, -, hfind, -⟩ := Instruction.parse_eq_some.1 hinstruction
  exact List.mem_of_find?_eq_some hfind

end Line

end Rv32i
