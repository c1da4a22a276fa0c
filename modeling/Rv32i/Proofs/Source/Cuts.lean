import Rv32i.Proofs.Program.Survey
import Rv32i.Proofs.Source.Fields
import Rv32i.Proofs.Text.Glyph
import Rv32i.Proofs.Text.Spacing

/-!
# Cuts at bytes

The comment and the label of a line are cut off at a byte, while white space is looked for among the
characters. Both see the same text, since an ASCII byte is never a part of another character. The
colon of a label stands in the first field, so nothing is taken from beyond the end of a line, and
where a body is left it starts with a mnemonic.
-/

set_option autoImplicit false

namespace Rv32i

namespace Text

section Lists

-- Marks are looked for among bytes and among glyphs.
variable {α : Type} [DecidableEq α] {mark : α} {before : List α}

theorem bne_of_not_mem (h : mark ∉ before) : ∀ g ∈ before, (g != mark) = true := by
  intro g hg
  simpa using fun heq : g = mark => h (heq ▸ hg)

theorem takeWhile_append_cons (h : mark ∉ before) (after : List α) :
    (before ++ mark :: after).takeWhile (· != mark) = before := by
  rw [List.takeWhile_append_of_pos (bne_of_not_mem h), List.takeWhile_cons_of_neg (by simp),
    List.append_nil]

theorem dropWhile_append_cons (h : mark ∉ before) (after : List α) :
    (before ++ mark :: after).dropWhile (· != mark) = mark :: after := by
  rw [List.dropWhile_append_of_pos (bne_of_not_mem h), List.dropWhile_cons_of_neg (by simp)]

end Lists

section Marks

variable {c : Char}

/-- Bytes up to a mark are decoded to the text up to it. -/
theorem ofBytes_takeWhile (hc : c.toNat < 128) (bytes : List UInt8) :
    ofBytes (bytes.takeWhile (· != UInt8.ofNat c.toNat)) =
      (ofBytes bytes).takeWhile (· != .scalar c) := by
  have hdecoded := decoded_ofBytes bytes
  rw [← toBytes_ofBytes bytes, hdecoded]
  generalize ofBytes bytes = t at hdecoded
  by_cases hmem : .scalar c ∈ t
  · obtain ⟨before, after, rfl, hbefore⟩ := List.eq_append_cons_of_mem hmem
    have hpart := hdecoded.of_append_left
    have hmark := mt (hpart.mem_toBytes_iff hc).1 hbefore
    rw [toBytes_append_ascii hc, takeWhile_append_cons hmark, takeWhile_append_cons hbefore]
    exact hpart
  · have hmark := mt (hdecoded.mem_toBytes_iff hc).1 hmem
    rw [List.takeWhile_eq_self_iff.2 (bne_of_not_mem hmark),
      List.takeWhile_eq_self_iff.2 (bne_of_not_mem hmem)]
    exact hdecoded

/-- Bytes before and after the first mark are decoded to the text before and after it. -/
theorem Decoded.cut_at_idxOf (hc : c.toNat < 128) {before after : Text}
    (h : Decoded (before ++ .scalar c :: after)) (hbefore : .scalar c ∉ before) {i : Nat}
    (hi : i = (toBytes (before ++ .scalar c :: after)).idxOf (UInt8.ofNat c.toNat)) :
    i = before.toBytes.length ∧
      ofBytes ((toBytes (before ++ .scalar c :: after)).take i) = before ∧
      ofBytes ((toBytes (before ++ .scalar c :: after)).drop (i + 1)) = after := by
  have hpart := h.of_append_left
  have hmark := mt (hpart.mem_toBytes_iff hc).1 hbefore
  rw [toBytes_append_ascii hc] at hi ⊢
  rw [List.idxOf_append_of_notMem hmark, List.idxOf_cons_self, Nat.add_zero] at hi
  refine ⟨hi, ?_, ?_⟩
  · rw [hi, List.take_left]
    exact hpart
  · rw [hi, ← List.drop_drop, List.drop_left, List.drop_one, List.tail_cons]
    exact (decoded_cons.1 h.of_append_right).1

end Marks

/-- Only the front of a text is trimmed if its end is not blank. -/
theorem exists_blank_append {t : Text} (hlast : ∀ g ∈ t.getLast?, g.isBlank = false) :
    ∃ blank : Text, blank.Blank ∧ t = blank ++ t.trim := by
  obtain ⟨a, b, ht, ha, hb⟩ := exists_blank_trim t
  cases b using List.reverseRecOn with
  | nil => exact ⟨a, ha, by rwa [List.append_nil] at ht⟩
  | append_singleton b g _ =>
    have hg : g.isBlank = true := hb g (by simp)
    rw [hlast g (by rw [ht]; simp)] at hg
    cases hg

end Text

theorem Text.toBytes_withoutComment (raw : List UInt8) :
    (Text.ofBytes raw).withoutComment.toBytes = Text.trimBytes (raw.takeWhile (· != 0x23)) := by
  have hbefore := Text.ofBytes_takeWhile (c := '#') (by decide) raw
  exact congrArg (fun t : Text => t.trim.toBytes) hbefore.symm

namespace Statement

/-- The bytes of a line are cut at their first colon, which stands in the first field. The label is
all that is before it, and the rest is what follows, without blanks at its ends. -/
structure Cut (bytes : List UInt8) (first label rest : Text) : Prop where
  front : first.toBytes <+: bytes
  inside : bytes.idxOf 0x3A < first.toBytes.length
  before : Text.ofBytes (bytes.take (bytes.idxOf 0x3A)) = label
  after : (Text.ofBytes (bytes.drop (bytes.idxOf 0x3A + 1))).trim = rest
  solid : label.Solid
  whole : ∃ blank : Text, blank.Blank ∧
    bytes = label.toBytes ++ 0x3A :: (blank.toBytes ++ rest.toBytes)

section Cut

variable {t first : Text} {others : List Text}

theorem cut_of_hasColon (ht : t.Decoded) (hhead : ∀ g ∈ t.head?, g.isBlank = false)
    (hlast : ∀ g ∈ t.getLast?, g.isBlank = false) (h : t.fields = first :: others)
    (hcolon : hasColon first = true) :
    Cut t.toBytes first (t.takeWhile (· != .scalar ':'))
      (Text.trim ((t.dropWhile (· != .scalar ':')).drop 1)) := by
  have hmem : .scalar ':' ∈ first := by simpa [hasColon] using hcolon
  have hfield : first.IsField := Text.isField_of_mem (h ▸ List.mem_cons_self)
  obtain ⟨beyond, rfl, -, -⟩ := Text.exists_first_field hhead h
  obtain ⟨label, tail, rfl, hlabel⟩ := List.eq_append_cons_of_mem hmem
  have hfront : Text.toBytes (label ++ .scalar ':' :: tail) <+:
      Text.toBytes (label ++ .scalar ':' :: tail ++ beyond) :=
    ⟨beyond.toBytes, (Text.toBytes_append _ _).symm⟩
  have hsize : (Text.toBytes label).length <
      (Text.toBytes (label ++ .scalar ':' :: tail)).length := by
    rw [Text.toBytes_append_ascii (by decide), List.length_append, List.length_cons]
    omega
  rw [List.append_assoc, List.cons_append] at ht hlast hfront ⊢
  obtain ⟨hindex, hbefore, hafter⟩ := ht.cut_at_idxOf (by decide) hlabel rfl
  rw [Text.takeWhile_append_cons hlabel, Text.dropWhile_append_cons hlabel, List.drop_one,
    List.tail_cons]
  have hend : ∀ g ∈ (tail ++ beyond).getLast?, g.isBlank = false := by
    intro g hg
    apply hlast g
    rw [List.getLast?_append, List.getLast?_cons, hg]
    rfl
  obtain ⟨blank, hblank, htrim⟩ := Text.exists_blank_append hend
  constructor
  · exact hfront
  · exact hindex.trans_lt hsize
  · exact hbefore
  · exact congrArg Text.trim hafter
  · exact fun g hg => hfield.2 g (List.mem_append_left _ hg)
  · refine ⟨blank, hblank, ?_⟩
    rw [← Text.toBytes_append, ← htrim]
    exact Text.toBytes_append_ascii (by decide) _ _

theorem split_of_hasColon (h : t.fields = first :: others) (hcolon : hasColon first = true) :
    split t =
      if isLabel (t.takeWhile (· != .scalar ':')) then
        .ok ⟨some (t.takeWhile (· != .scalar ':')),
          Text.trim ((t.dropWhile (· != .scalar ':')).drop 1)⟩
      else .error (.malformedLabel (t.takeWhile (· != .scalar ':'))) := by
  rw [split, h, List.head?_cons, Option.any_some, if_pos hcolon]

end Cut

end Statement

namespace Line

variable {raw : Text} {statement : Statement}

/-- A body starts with a mnemonic, and lowering its letters leaves some text. -/
theorem exists_mnemonic (h : Statement.ofLine raw = .ok statement) (hbody : statement.body ≠ []) :
    ∃ mnemonic rest, statement.body.fields = mnemonic :: rest ∧ mnemonic ≠ [] ∧
      mnemonic.lower ≠ [] := by
  obtain ⟨mnemonic, rest, hfields⟩ :=
    List.exists_cons_of_ne_nil (mt (fields_body_eq_nil_iff h).1 hbody)
  have hne : mnemonic ≠ [] := (Text.isField_of_mem (hfields ▸ List.mem_cons_self)).1
  exact ⟨mnemonic, rest, hfields, hne, mt List.map_eq_nil_iff.1 hne⟩

/-- The survey counts the lines that are read as instructions. -/
theorem survey_counts_iff {s s' : Survey} (hstep : s.step raw = .ok s') {l : Line}
    (hparse : parse raw = .ok l) : s'.pc ≠ s.pc ↔ l.instruction.isSome = true := by
  obtain ⟨statement, hstatement, -, rfl⟩ := Survey.step_eq_ok.1 hstep
  rw [← isInstruction_of_parse hparse, isInstruction_of_ok hstatement]
  cases statement.body.isEmpty with
  | true => simp
  | false => simp [wordSize]

/-- Nothing is read from beyond the end of a line, whatever its bytes are. The comment is cut off at
its first byte. If the first field has a colon, the line is cut inside that field, and only blanks
are lost. A body that is not empty has a first field, which is the mnemonic, so the survey counts a
line exactly if it is read as an instruction. -/
theorem parse_in_range (raw : List UInt8) :
    let line := Text.ofBytes raw
    let bytes := line.withoutComment.toBytes
    bytes = Text.trimBytes (raw.takeWhile (· != 0x23)) ∧
    (∀ first ∈ line.withoutComment.fields.head?, Statement.hasColon first = true →
      ∃ label rest, Statement.Cut bytes first label rest ∧
        Statement.ofLine line =
          if Statement.isLabel label then .ok ⟨some label, rest⟩
          else .error (.malformedLabel label)) ∧
    (∀ statement, Statement.ofLine line = .ok statement → statement.body ≠ [] →
      ∃ mnemonic rest, statement.body.fields = mnemonic :: rest ∧ mnemonic ≠ [] ∧
        mnemonic.lower ≠ []) ∧
    ∀ s s' : Survey, s.step line = .ok s' → ∀ l, parse line = .ok l →
      (s'.pc ≠ s.pc ↔ l.instruction.isSome = true) := by
  intro line bytes
  have hline : line.withoutComment.Decoded :=
    (Text.decoded_ofBytes raw).of_isInfix
      ((Text.trim_isInfix _).trans (List.takeWhile_prefix _).isInfix)
  refine ⟨Text.toBytes_withoutComment raw, ?_, ?_, ?_⟩
  · intro first hfirst hcolon
    obtain ⟨others, hfields⟩ := List.head?_eq_some_iff.1 hfirst
    refine ⟨_, _, ?_, Statement.split_of_hasColon hfields hcolon⟩
    exact Statement.cut_of_hasColon hline (Text.head?_trim _) (Text.getLast?_trim _) hfields hcolon
  · exact fun statement h hbody => exists_mnemonic h hbody
  · exact fun s s' hstep l hparse => survey_counts_iff hstep hparse

end Line

end Rv32i
