import Mathlib.Tactic.Tauto
import Rv32i.Proofs.Source.Written
import Rv32i.Proofs.Text.Glyph

/-!
# Canonical lines

Whatever bytes a line is read from, what is read has one form: a legal label, a mnemonic of the
table in lower case, and operands without commas, comments and superfluous blanks. Written out in
this form and encoded to bytes it is read as the same line again.
-/

set_option autoImplicit false

namespace Rv32i

open Text (ofString)

namespace Statement

def LabelText (name : Text) : Prop :=
  name ≠ [] ∧ ∀ g ∈ name, ∃ c, g = .scalar c ∧ (c.isAlphanum = true ∨ c = '_')

theorem labelText_of_isLabel {name : Text} (h : isLabel name = true) : LabelText name := by
  rw [isLabel, Bool.and_eq_true, List.all_eq_true] at h
  refine ⟨by simpa using h.1, fun g hg => ?_⟩
  have hglyph := h.2 g hg
  cases g with
  | stray b => cases hglyph
  | scalar c =>
    have hupper : c.isUpper = decide (c.val ≥ 'A'.val ∧ c.val ≤ 'Z'.val) := rfl
    have hlower : c.isLower = (decide (c.val ≥ 'a'.val) && decide (c.val ≤ 'z'.val)) := rfl
    have hdigit : c.isDigit = (decide (c.val ≥ '0'.val) && decide (c.val ≤ '9'.val)) := rfl
    have halphanum : c.isAlphanum = (c.isUpper || c.isLower || c.isDigit) := rfl
    refine ⟨c, rfl, ?_⟩
    simp only [isLabelGlyph, Bool.or_eq_true, Bool.and_eq_true, decide_eq_true_eq, beq_iff_eq,
      Char.le_def] at hglyph
    simp only [halphanum, hupper, hlower, hdigit, Bool.or_eq_true, Bool.and_eq_true,
      decide_eq_true_eq, ge_iff_le]
    tauto

theorem isLabel_of_ofLine {raw : Text} {statement : Statement}
    (h : ofLine raw = .ok statement) {name : Text} (hname : statement.label = some name) :
    isLabel name = true := by
  unfold ofLine split at h
  split at h
  · dsimp only at h
    split at h
    · next hlabel =>
      cases h
      cases hname
      exact hlabel
    · cases h
  · cases h
    cases hname

end Statement

namespace Text

theorem Decoded.append_spaced {s t : Text} (hs : s.Decoded) (ht : t.Decoded) :
    Decoded (s ++ t.spaced) := by
  unfold spaced
  split
  · rwa [List.append_nil]
  · exact hs.append_ascii ht (by decide)

theorem Squeezed.singleSpaced {t : Text} (h : t.Squeezed) : t.SingleSpaced := by
  rw [← h]
  exact singleSpaced_intercalate fun f hf => isField_of_mem hf

end Text

namespace Instruction

structure Tidy (op : Text) : Prop where
  decoded : op.Decoded
  comma : .scalar ',' ∉ op
  mark : .scalar '#' ∉ op
  trimmed : op.trim = op
  spaced : op.SingleSpaced

theorem Readable.tidy {operands : List Text} (h : Readable operands)
    (hdecoded : ∀ op ∈ operands, op.Decoded) : ∀ op ∈ operands, Tidy op := by
  intro op hop
  obtain ⟨hsqueezed, hcomma⟩ := h.separable op hop
  exact ⟨hdecoded op hop, hcomma, h.unmarked op hop, hsqueezed.trim_eq, hsqueezed.singleSpaced⟩

/-- Operands are cut out of fields that are joined by spaces. -/
theorem decoded_operandsOf {fields : List Text} (h : ∀ f ∈ fields, f.Decoded) :
    ∀ op ∈ operandsOf fields, op.Decoded := by
  have hjoined : Text.Decoded ([.scalar ' '].intercalate fields) :=
    Text.Decoded.intercalate (by decide) (List.forall_mem_nil _) h
  intro op hop
  unfold operandsOf at hop
  dsimp only at hop
  split at hop
  · cases hop
  · obtain ⟨piece, hpiece, rfl⟩ := List.mem_map.1 hop
    exact hjoined.of_isInfix (piece.trim_isInfix.trans (Text.infix_of_mem_splitOnP hpiece))

theorem decoded_render {i : Instruction} (hd : i.descriptor ∈ Descriptor.table)
    (h : ∀ op ∈ i.operands, op.Decoded) : i.render.Decoded := by
  have hall : ∀ d ∈ Descriptor.table, Text.ofBytes d.mnemonic.toBytes = d.mnemonic := by decide
  have hspace : ∀ g ∈ ofString " ", ∃ c, g = .scalar c := fun g hg => ⟨' ', List.mem_singleton.1 hg⟩
  exact Text.Decoded.append_spaced (hall _ hd) (Text.Decoded.intercalate (by decide) hspace h)

end Instruction

namespace Line

def mnemonicOf (raw : Text) : Option Text :=
  match Statement.ofLine raw with
  | .ok statement => statement.body.fields.head?
  | .error _ => none

section Parsed

variable {raw : Text} {l : Line}

theorem written_of_parse (h : parse raw = .ok l) : l.Written where
  label name hname := by
    obtain ⟨statement, hstatement, hlabel, -⟩ := parse_eq_ok.1 h
    exact Statement.isLabel_of_ofLine hstatement (hlabel ▸ hname)
  descriptor i hi := by
    obtain ⟨label, instruction⟩ := l
    cases hi
    exact mem_table_of_parse h
  operands i hi := by
    obtain ⟨label, instruction⟩ := l
    cases hi
    exact readable_of_parse h

theorem mnemonicOf_of_parse (h : parse raw = .ok l) {i : Instruction}
    (hi : l.instruction = some i) :
    ∃ field, mnemonicOf raw = some field ∧ field.lower = i.descriptor.mnemonic := by
  obtain ⟨statement, hstatement, -, hinstruction⟩ := parse_eq_ok.1 h
  rw [hi] at hinstruction
  obtain ⟨field, rest, hfields, hfind, -⟩ := Instruction.parse_eq_some.1 hinstruction
  refine ⟨field, ?_, ?_⟩
  · simp only [mnemonicOf, hstatement, hfields, List.head?_cons]
  · have hfound := List.find?_some hfind
    exact (beq_iff_eq.1 hfound).symm

theorem decoded_operands_of_parse (hraw : raw.Decoded) (h : parse raw = .ok l) {i : Instruction}
    (hi : l.instruction = some i) : ∀ op ∈ i.operands, op.Decoded := by
  obtain ⟨statement, hstatement, -, hinstruction⟩ := parse_eq_ok.1 h
  rw [hi] at hinstruction
  obtain ⟨field, rest, hfields, -, hoperands⟩ := Instruction.parse_eq_some.1 hinstruction
  rw [← hoperands]
  apply Instruction.decoded_operandsOf
  intro f hf
  have hfield : f ∈ statement.body.fields := hfields ▸ List.mem_cons_of_mem field hf
  have hbefore : raw.beforeComment <:+: raw := (List.takeWhile_prefix _).isInfix
  exact hraw.of_isInfix
    ((Text.infix_of_mem_fields hfield).trans ((Statement.body_isInfix hstatement).trans hbefore))

/-- The bytes of a line as it is written are decoded to its text. -/
theorem Written.decoded_render (h : l.Written)
    (hoperands : ∀ i, l.instruction = some i → ∀ op ∈ i.operands, op.Decoded) :
    l.render.Decoded := by
  have hbody : l.body.Decoded := by
    unfold body
    cases hinstruction : l.instruction with
    | none => rfl
    | some i =>
      exact Instruction.decoded_render (h.descriptor i hinstruction) (hoperands i hinstruction)
  unfold render
  cases hlabel : l.label with
  | none => exact hbody
  | some name =>
    have hscalar : ∀ g ∈ name, ∃ c, g = .scalar c := by
      intro g hg
      obtain ⟨c, hc, -⟩ := (Statement.labelText_of_isLabel (h.label name hlabel)).2 g hg
      exact ⟨c, hc⟩
    have hname : Text.Decoded (name ++ ofString ":") := Text.Decoded.scalar_append hscalar rfl
    exact hname.append_spaced hbody

end Parsed

/-- A line that is read from any bytes has a legal label, a mnemonic of the table, which is the
first field in lower case, and tidy operands, which are not a single empty one. Written out it is
read again as the same line. -/
theorem parse_canonical {bytes : List UInt8} {l : Line} (h : parse (Text.ofBytes bytes) = .ok l) :
    (∀ name, l.label = some name → Statement.LabelText name) ∧
    (∀ i, l.instruction = some i → i.descriptor ∈ Descriptor.table ∧
      (∃ field, mnemonicOf (Text.ofBytes bytes) = some field ∧
        field.lower = i.descriptor.mnemonic) ∧
      (∀ op ∈ i.operands, Instruction.Tidy op) ∧ i.operands ≠ [[]]) ∧
    parse (Text.ofBytes l.render.toBytes) = .ok l := by
  have hwritten := written_of_parse h
  have hdecoded (i : Instruction) (hi : l.instruction = some i) : ∀ op ∈ i.operands, op.Decoded :=
    decoded_operands_of_parse (Text.decoded_ofBytes bytes) h hi
  refine ⟨fun name hname => ?_, fun i hi => ?_, ?_⟩
  · exact Statement.labelText_of_isLabel (hwritten.label name hname)
  · have hreadable := hwritten.operands i hi
    exact ⟨hwritten.descriptor i hi, mnemonicOf_of_parse h hi, hreadable.tidy (hdecoded i hi),
      hreadable.nonempty⟩
  · have hrender := hwritten.decoded_render hdecoded
    rw [Text.Decoded] at hrender
    rw [hrender, hwritten.parse_render]

/-- A label that is glued to its mnemonic, a dotted capital I, an empty operand, a no-break space
and a byte that belongs to no character. -/
theorem parse_canonical_glued :
    let bytes := (ofString "\tL_1:ADD\u0130 x1 ,\u00a0, 4\t 2").toBytes ++ [0xff] ++
      (ofString " # up").toBytes
    let l : Line := ⟨some (ofString "L_1"), some ⟨Descriptor.immediate "addi" 0b000 0b0000000,
      [ofString "x1", [], ofString "4 2" ++ [.stray 0xff]]⟩⟩
    parse (Text.ofBytes bytes) = .ok l ∧ parse (Text.ofBytes l.render.toBytes) = .ok l := by
  intro bytes l
  have hparse : parse (Text.ofBytes bytes) = .ok l := by rfl
  exact ⟨hparse, (parse_canonical hparse).2.2⟩

end Line

end Rv32i
