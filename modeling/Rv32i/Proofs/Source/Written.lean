import Rv32i.Proofs.Source.Fields
import Rv32i.Proofs.Text.Spacing

/-!
# Written lines

A label and an instruction can be written as a line that is read back as they are, if the operands
are squeezed and hold no commas and no comment. All operands that are read from a line are so.
-/

set_option autoImplicit false

namespace Rv32i

open Text (ofString)

namespace Text

def spaced (t : Text) : Text := if t.isEmpty then [] else .scalar ' ' :: t

theorem fields_append_spaced (s t : Text) : fields (s ++ t.spaced) = s.fields ++ t.fields := by
  cases t with
  | nil => simp [spaced]
  | cons g t => exact fields_append_of_blank s (g :: t) rfl

theorem mem_spaced {g : Glyph} {t : Text} (h : g ∈ t.spaced) : g = .scalar ' ' ∨ g ∈ t := by
  unfold spaced at h
  split at h
  · cases h
  · exact List.mem_cons.1 h

end Text

namespace Instruction

/-- Operands that can be written and read back. A single empty operand cannot be told from none. -/
structure Readable (operands : List Text) : Prop where
  separable : Separable operands
  unmarked : ∀ op ∈ operands, .scalar '#' ∉ op
  nonempty : operands ≠ [[]]

theorem readable_operandsOf {fields : List Text} (hfields : ∀ f ∈ fields, f.IsField)
    (hmark : ∀ f ∈ fields, .scalar '#' ∉ f) : Readable (operandsOf fields) := by
  have hspaced := Text.singleSpaced_intercalate hfields
  have hsqueezed := Text.squeezed_intercalate hfields
  have hunmarked : .scalar '#' ∉ [Glyph.scalar ' '].intercalate fields :=
    Text.not_mem_intercalate (by decide) hmark
  unfold operandsOf
  generalize [Glyph.scalar ' '].intercalate fields = joined at hspaced hsqueezed hunmarked
  dsimp only
  split
  · exact ⟨nofun, nofun, nofun⟩
  · next hne =>
    have hpiece : ∀ op ∈ (joined.splitOn (.scalar ',')).map Text.trim,
        ∃ piece : Text, piece <:+: joined ∧ .scalar ',' ∉ piece ∧ op = piece.trim := by
      intro op hop
      obtain ⟨piece, hmem, rfl⟩ := List.mem_map.1 hop
      refine ⟨piece, Text.infix_of_mem_splitOnP hmem, fun hcomma => ?_, rfl⟩
      simpa using Text.not_of_mem_splitOnP hmem _ hcomma
    refine ⟨?_, ?_, ?_⟩
    · intro op hop
      obtain ⟨piece, hpart, hcomma, rfl⟩ := hpiece op hop
      refine ⟨(hspaced.of_isInfix hpart).squeezed_trim, fun hmem => ?_⟩
      exact hcomma (piece.trim_isInfix.subset hmem)
    · intro op hop hmem
      obtain ⟨piece, hpart, -, rfl⟩ := hpiece op hop
      exact hunmarked (hpart.subset (piece.trim_isInfix.subset hmem))
    · -- A single piece is the whole text, of which something remains after trimming.
      intro hsingle
      obtain ⟨piece, hsplit, htrim⟩ := List.map_eq_singleton_iff.1 hsingle
      have hwhole : [Glyph.scalar ','].intercalate (joined.splitOn (.scalar ',')) = joined :=
        List.intercalate_splitOn (Glyph.scalar ',')
      rw [hsplit, List.intercalate_singleton] at hwhole
      rw [hwhole, hsqueezed.trim_eq] at htrim
      simp [htrim] at hne

def render (i : Instruction) : Text := i.descriptor.mnemonic ++ (listed i.operands).spaced

variable {i : Instruction}

theorem fields_render (hd : i.descriptor ∈ Descriptor.table) :
    i.render.fields = i.descriptor.mnemonic :: (listed i.operands).fields := by
  rw [render, Text.fields_append_spaced,
    Text.fields_of_isField (Descriptor.spelled_of_mem hd).1.isField, List.singleton_append]

theorem parse_render (hd : i.descriptor ∈ Descriptor.table) (h : Readable i.operands) :
    parse i.render = .ok (some i) := by
  apply parse_eq_some.2
  refine ⟨_, _, fields_render hd, (Descriptor.spelled_of_mem hd).2, ?_⟩
  exact operandsOf_listed h.separable h.nonempty

theorem mark_not_mem_render (hd : i.descriptor ∈ Descriptor.table) (h : Readable i.operands) :
    .scalar '#' ∉ i.render := by
  intro hmark
  rcases List.mem_append.1 hmark with hmark | hmark
  · exact (Descriptor.spelled_of_mem hd).1.not_mem rfl hmark
  · rcases Text.mem_spaced hmark with hspace | hmark
    · cases hspace
    · exact not_mem_listed (by decide) (by decide) h.unmarked hmark

end Instruction

theorem Statement.body_isInfix {raw : Text} {statement : Statement}
    (h : ofLine raw = .ok statement) : statement.body <:+: raw.beforeComment := by
  have hline : raw.withoutComment <:+: raw.beforeComment := Text.trim_isInfix _
  unfold ofLine split at h
  split at h
  · dsimp only at h
    split at h
    · cases h
      have hrest : ((raw.withoutComment.dropWhile (· != .scalar ':')).drop 1) <:+:
          raw.withoutComment :=
        ((List.drop_suffix _ _).trans (List.dropWhile_suffix _)).isInfix
      exact ((Text.trim_isInfix _).trans hrest).trans hline
    · cases h
  · cases h
    exact hline

theorem Statement.mark_not_mem_body {raw : Text} {statement : Statement}
    (h : ofLine raw = .ok statement) : .scalar '#' ∉ statement.body := by
  intro hmem
  have hbefore := List.mem_takeWhile_imp ((body_isInfix h).subset hmem)
  simp at hbefore

namespace Line

theorem readable_of_parse {raw : Text} {label : Option Text} {d : Descriptor}
    {operands : List Text} (h : parse raw = .ok ⟨label, some ⟨d, operands⟩⟩) :
    Instruction.Readable operands := by
  obtain ⟨statement, hstatement, -, hinstruction⟩ := parse_eq_ok.1 h
  obtain ⟨mnemonic, rest, hfields, -, rfl⟩ := Instruction.parse_eq_some.1 hinstruction
  have hmem : ∀ f ∈ rest, f ∈ statement.body.fields := by
    intro f hf
    rw [hfields]
    exact List.mem_cons_of_mem mnemonic hf
  apply Instruction.readable_operandsOf
  · exact fun f hf => Text.isField_of_mem (hmem f hf)
  · intro f hf hmark
    have hbody := Text.infix_of_mem_fields (hmem f hf)
    exact Statement.mark_not_mem_body hstatement (hbody.subset hmark)

def body (l : Line) : Text := (l.instruction.map Instruction.render).getD []

def render (l : Line) : Text :=
  match l.label with
  | none => l.body
  | some name => name ++ ofString ":" ++ l.body.spaced

structure Written (l : Line) : Prop where
  label : ∀ name ∈ l.label, Statement.isLabel name = true
  descriptor : ∀ i ∈ l.instruction, i.descriptor ∈ Descriptor.table
  operands : ∀ i ∈ l.instruction, Instruction.Readable i.operands

end Line

namespace Statement

theorem isPlainGlyph_of_isLabelGlyph {g : Glyph} (h : isLabelGlyph g = true) :
    Text.isPlainGlyph g = true := by
  have hall : ∀ n < 128, isLabelGlyph (.scalar (Char.ofNat n)) = true →
      Text.isPlainGlyph (.scalar (Char.ofNat n)) = true := by decide
  cases g with
  | stray b => cases h
  | scalar c =>
    have hle : c ≤ 'z' := by
      simp only [isLabelGlyph, Bool.or_eq_true, Bool.and_eq_true, decide_eq_true_eq,
        beq_iff_eq] at h
      rcases h with ((h | h) | h) | rfl
      · exact h.2
      · exact Char.le_trans h.2 (by decide)
      · exact Char.le_trans h.2 (by decide)
      · decide
    rw [← Char.ofNat_toNat c] at h ⊢
    exact hall c.toNat (Nat.lt_of_le_of_lt hle (by decide)) h

theorem plain_of_isLabel {name : Text} (h : isLabel name = true) : name.Plain := by
  rw [isLabel, Bool.and_eq_true, List.all_eq_true] at h
  exact ⟨by simpa using h.1, fun g hg => isPlainGlyph_of_isLabelGlyph (h.2 g hg)⟩

/-- With its colon a label is one field, outside any comment. -/
theorem isField_label {name : Text} (h : isLabel name = true) :
    Text.IsField (name ++ ofString ":") ∧ .scalar '#' ∉ name ++ ofString ":" := by
  have hplain := plain_of_isLabel h
  refine ⟨⟨by simp [hplain.1], ?_⟩, ?_⟩
  · intro g hg
    rcases List.mem_append.1 hg with hg | hg
    · exact hplain.isField.2 g hg
    · rw [List.mem_singleton.1 hg]
      rfl
  · intro hmark
    rcases List.mem_append.1 hmark with hmark | hmark
    · exact hplain.not_mem rfl hmark
    · cases List.mem_singleton.1 hmark

theorem ofFields_label {name : Text} (h : isLabel name = true) (others : List Text) :
    ofFields ((name ++ ofString ":") :: others) = .ok (some name, others) := by
  have hcolon : ∀ g ∈ name, (g != .scalar ':') = true := by
    intro g hg
    simpa using fun heq : g = .scalar ':' => (plain_of_isLabel h).not_mem rfl (heq ▸ hg)
  have htake : (name ++ ofString ":").takeWhile (· != .scalar ':') = name := by
    rw [List.takeWhile_append_of_pos hcolon]
    exact List.append_nil name
  have hdrop : (name ++ ofString ":").dropWhile (· != .scalar ':') = ofString ":" := by
    rw [List.dropWhile_append_of_pos hcolon]
    rfl
  have hhas : hasColon (name ++ ofString ":") = true := by simp [hasColon, ofString]
  simp only [ofFields, hhas, if_true, htake, h, hdrop]
  rfl

theorem ofFields_plain {first : Text} (h : first.Plain) (others : List Text) :
    ofFields (first :: others) = .ok (none, first :: others) := by
  rw [ofFields, hasColon_of_plain h]
  rfl

end Statement

namespace Line

theorem parse_of_ofFields {raw body : Text} {label : Option Text}
    {instruction : Option Instruction}
    (h : Statement.ofFields raw.beforeComment.fields = .ok (label, body.fields))
    (hbody : Instruction.parse body = .ok instruction) :
    parse raw = .ok ⟨label, instruction⟩ := by
  obtain ⟨body', hline, hfields⟩ := Statement.ofLine_of_ofFields h
  apply parse_eq_ok.2
  refine ⟨_, hline, rfl, ?_⟩
  rw [Instruction.parse_congr hfields, hbody]

namespace Written

variable {l : Line}

theorem parse_body (h : l.Written) : Instruction.parse l.body = .ok l.instruction := by
  unfold body
  cases hinstruction : l.instruction with
  | none => rfl
  | some i => exact Instruction.parse_render (h.descriptor i hinstruction) (h.operands i hinstruction)

theorem mark_not_mem_body (h : l.Written) : .scalar '#' ∉ l.body := by
  unfold body
  cases hinstruction : l.instruction with
  | none => exact List.not_mem_nil
  | some i =>
    exact Instruction.mark_not_mem_render (h.descriptor i hinstruction) (h.operands i hinstruction)

theorem ofFields_body (h : l.Written) :
    Statement.ofFields l.body.fields = .ok (none, l.body.fields) := by
  unfold body
  cases hinstruction : l.instruction with
  | none => rfl
  | some i =>
    have hd := h.descriptor i hinstruction
    rw [Option.map_some, Option.getD_some, Instruction.fields_render hd]
    exact Statement.ofFields_plain (Descriptor.spelled_of_mem hd).1 _

/-- What can be written is read back. -/
theorem parse_render (h : l.Written) : Line.parse l.render = .ok l := by
  have hmark := h.mark_not_mem_body
  unfold render
  obtain ⟨label, instruction⟩ := l
  cases label with
  | none =>
    apply parse_of_ofFields _ h.parse_body
    dsimp only
    rw [Text.beforeComment_of_not_mem hmark, h.ofFields_body]
  | some name =>
    have hname := h.label name rfl
    obtain ⟨hlabel, hunmarked⟩ := Statement.isField_label hname
    have hline : .scalar '#' ∉ name ++ ofString ":" ++ (body ⟨some name, instruction⟩).spaced := by
      intro hmem
      rcases List.mem_append.1 hmem with hmem | hmem
      · exact hunmarked hmem
      · rcases Text.mem_spaced hmem with hspace | hmem
        · cases hspace
        · exact hmark hmem
    apply parse_of_ofFields _ h.parse_body
    dsimp only
    rw [Text.beforeComment_of_not_mem hline, Text.fields_append_spaced,
      Text.fields_of_isField hlabel, List.singleton_append, Statement.ofFields_label hname]

end Written

end Line

end Rv32i
