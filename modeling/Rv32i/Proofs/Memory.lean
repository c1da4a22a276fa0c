import Mathlib.Algebra.Ring.Int.Defs
import Rv32i.Proofs.Literal

/-!
# Memory operands

The texts that are memory operands, described by what they consist of. Between the parentheses
stands the name of a register. The rule is read with a text there that is not empty: `8()` is a
fault of the operand's form and not an unknown register. Spaces, tabs, and line and page ends are
refused there, but the other blanks are let through and trimmed off the name. Apart from texts with
such blanks the reader accepts an offset and a register's name with nothing around them, and no
other text.
-/

set_option autoImplicit false

namespace Rv32i

open Text (ofString)

namespace Numeral

theorem exists_denotes {base : Nat} {t : Text} (hne : t ≠ [])
    (h : ∀ g ∈ t, ∃ d, ReadAs base d g) : ∃ n, Denotes base t n := by
  have hdigits (digits : Text) (hall : ∀ g ∈ digits, ∃ d, ReadAs base d g) :
      ∃ ds, List.Forall₂ (ReadAs base) ds digits := by
    induction digits with
    | nil => exact ⟨[], .nil⟩
    | cons g digits ih =>
      obtain ⟨d, hd⟩ := hall g List.mem_cons_self
      obtain ⟨ds, hds⟩ := ih fun g' hg' => hall g' (List.mem_cons_of_mem _ hg')
      exact ⟨d :: ds, .cons hd hds⟩
  obtain ⟨ds, hds⟩ := hdigits t.reverse fun g hg => h g (List.mem_reverse.1 hg)
  exact ⟨_, hne, ds, hds, rfl⟩

end Numeral

namespace MemoryOperand

/-- Neither a parenthesis nor white space of any kind. -/
def Tight (g : Glyph) : Prop := g ≠ .scalar '(' ∧ g ≠ .scalar ')' ∧ g.isBlank = false

/-- Neither a parenthesis nor a space, a tab, or a line or page end. -/
def Loose (g : Glyph) : Prop :=
  g ≠ .scalar '(' ∧ g ≠ .scalar ')' ∧ g ∉ [' ', '\t', '\n', '\x0c', '\r'].map Glyph.scalar

/-- An optional sign, decimal digits, and a text in parentheses that is not empty and consists of
the allowed glyphs. The number fits a signed 64-bit integer. -/
structure Bracketed (Allowed : Glyph → Prop) (t : Text) (v : Int) (inner : Text) : Prop where
  enclosed : ∃ sign negative digits n, (sign, negative) ∈ Literal.signs ∧
    Numeral.Denotes 10 digits n ∧ t = sign ++ digits ++ ofString "(" ++ inner ++ ofString ")" ∧
    v = if negative then -(n : Int) else n
  range : -2 ^ 63 ≤ v ∧ v ≤ 2 ^ 63 - 1
  nonempty : inner ≠ []
  allowed : ∀ g ∈ inner, Allowed g

/-- The answer to a text, given what may stand between the parentheses and which register it names.
A text in parentheses that names none is an unknown register. Whatever else is wrong is a fault of
the operand's form. -/
structure Answers (Allowed : Glyph → Prop) (Names : Text → Register → Prop) (t : Text)
    (answer : Except Fault MemoryOperand) : Prop where
  ok_iff : ∀ v r, answer = .ok ⟨v, r⟩ ↔ ∃ inner, Bracketed Allowed t v inner ∧ Names inner r
  unknown_iff : (∃ fault, answer = .error fault ∧ fault.kind = .unknownRegister) ↔
    ∃ v inner, Bracketed Allowed t v inner ∧ ∀ r, ¬ Names inner r
  malformed_iff : (∃ fault, answer = .error fault ∧ fault.kind = .operandFormat) ↔
    ∀ v inner, ¬ Bracketed Allowed t v inner

section Reader

variable {t s inner token : Text} {v : Int}

theorem isInner_iff {g : Glyph} : isInner g = true ↔ Loose g := by
  simp only [isInner, Loose, List.map_cons, List.map_nil, Bool.not_eq_true', List.contains_eq_mem,
    decide_eq_false_iff_not, List.mem_cons, List.not_mem_nil, or_false, not_or]
  tauto

theorem isInt64_iff : isInt64 v = true ↔ -2 ^ 63 ≤ v ∧ v ≤ 2 ^ 63 - 1 := by
  have hbound : (int64Bound : Int) = 2 ^ 63 := rfl
  rw [isInt64, hbound, Bool.and_eq_true, decide_eq_true_eq, decide_eq_true_eq]
  omega

theorem no_parenthesis {sign digits : Text} {negative : Bool} {n : Nat}
    (hsign : (sign, negative) ∈ Literal.signs) (hdigits : Numeral.Denotes 10 digits n) :
    ∀ g ∈ sign ++ digits, (g != .scalar '(') = true := by
  have hsigns : ∀ e ∈ Literal.signs, ∀ g ∈ e.1, (g != .scalar '(') = true := by decide
  have hall : ∀ d < 10, (Glyph.scalar (Nat.digitChar d) != .scalar '(') = true := by decide
  intro g hg
  rcases List.mem_append.1 hg with hg | hg
  · exact hsigns _ hsign g hg
  · obtain ⟨d, hd, rfl⟩ := hdigits.isDigit g hg
    exact hall d hd

/-- The digits follow right after the sign, also where more text follows them. -/
theorem splitSign_digits {sign digits : Text} {negative : Bool} {n : Nat}
    (hsign : (sign, negative) ∈ Literal.signs) (hdigits : Numeral.Denotes 10 digits n)
    (rest : Text) :
    Literal.splitSign (sign ++ digits ++ rest) = (negative, digits ++ rest) := by
  obtain ⟨g, digits', rfl⟩ := List.exists_cons_of_ne_nil hdigits.1
  simp only [Literal.signs, List.mem_cons, List.not_mem_nil, or_false, Prod.mk.injEq] at hsign
  rcases hsign with ⟨rfl, rfl⟩ | ⟨rfl, rfl⟩ | ⟨rfl, rfl⟩
  · exact Literal.splitSign_of_isDigit (hdigits.isDigit g List.mem_cons_self) _
  · rfl
  · rfl

theorem offset?_digits {sign digits : Text} {negative : Bool} {n : Nat}
    (hsign : (sign, negative) ∈ Literal.signs) (hdigits : Numeral.Denotes 10 digits n) :
    offset? (sign ++ digits) = (some (Literal.applySign negative n)).filter isInt64 := by
  have hsplit := splitSign_digits hsign hdigits []
  rw [List.append_nil, List.append_nil] at hsplit
  simp only [offset?, hsplit, (Numeral.value?_eq_some_iff (by decide)).2 hdigits, Option.map_some]

/-- What the splitting finds is a sign, digits, and what stands between the parentheses. -/
theorem exists_of_split? (h : split? t = some (s, inner)) :
    ∃ sign negative digits n, (sign, negative) ∈ Literal.signs ∧ Numeral.Denotes 10 digits n ∧
      s = sign ++ digits ∧ t = s ++ .scalar '(' :: (inner ++ [.scalar ')']) ∧ inner ≠ [] ∧
      ∀ g ∈ inner, isInner g = true := by
  rcases hsign : Literal.splitSign t with ⟨negative, magnitude⟩
  obtain ⟨sign, hmem, rfl⟩ := Literal.exists_sign hsign
  unfold split? at h
  simp only [hsign] at h
  split at h
  · next rest hrest =>
    split at h
    · next hparts =>
      simp only [Bool.and_eq_true, Bool.not_eq_true', List.isEmpty_eq_false_iff, beq_iff_eq] at hparts
      obtain ⟨⟨hdigits, hinner⟩, hend⟩ := hparts
      have hread : ∀ g ∈ magnitude.takeWhile isDigit, ∃ d, Numeral.ReadAs 10 d g := by
        intro g hg
        have hdigit : isDigit g = true := List.mem_takeWhile_imp hg
        obtain ⟨d, hd⟩ := Option.isSome_iff_exists.1 hdigit
        exact ⟨d, (Numeral.digit?_eq_some_iff (by decide)).1 hd⟩
      obtain ⟨n, hn⟩ := Numeral.exists_denotes hdigits hread
      have hmagnitude : magnitude =
          magnitude.takeWhile isDigit ++ .scalar '(' ::
            (rest.takeWhile isInner ++ [.scalar ')']) := by
        rw [← hend, List.takeWhile_append_dropWhile, ← hrest, List.takeWhile_append_dropWhile]
      have hbefore : List.takeWhile (· != .scalar '(') (sign ++ magnitude) =
          sign ++ magnitude.takeWhile isDigit := by
        conv_lhs => rw [hmagnitude, ← List.append_assoc]
        rw [List.takeWhile_append_of_pos (no_parenthesis hmem hn)]
        exact List.append_nil _
      rw [Option.some.injEq, Prod.mk.injEq, hbefore] at h
      obtain ⟨rfl, rfl⟩ := h
      refine ⟨sign, negative, _, n, hmem, hn, rfl, ?_, hinner, fun g hg => List.mem_takeWhile_imp hg⟩
      rw [List.append_assoc, ← hmagnitude]
    · cases h
  · cases h

/-- The reader's two steps together find the operands with loose contents. -/
theorem bracketed_iff :
    Bracketed Loose t v inner ↔ ∃ s, split? t = some (s, inner) ∧ offset? s = some v := by
  constructor
  · rintro ⟨⟨sign, negative, digits, n, hsign, hdigits, rfl, rfl⟩, hrange, hne, hinner⟩
    have hsplit := split?_enclosed (splitSign_digits hsign hdigits _)
      (no_parenthesis hsign hdigits) (fun g hg => isDigit_of_digit (hdigits.isDigit g hg))
      hdigits.1 (fun g hg => isInner_iff.2 (hinner g hg)) hne
    refine ⟨sign ++ digits, ?_, ?_⟩
    · rw [← hsplit]
      simp [ofString]
    · rw [offset?_digits hsign hdigits]
      exact Option.filter_eq_some_iff.2 ⟨rfl, isInt64_iff.2 hrange⟩
  · rintro ⟨s, hsplit, hoffset⟩
    obtain ⟨sign, negative, digits, n, hsign, hdigits, rfl, rfl, hne, hinner⟩ :=
      exists_of_split? hsplit
    rw [offset?_digits hsign hdigits, Option.filter_eq_some_iff, Option.some.injEq] at hoffset
    obtain ⟨rfl, hrange⟩ := hoffset
    refine ⟨⟨sign, negative, digits, n, hsign, hdigits, ?_, rfl⟩, isInt64_iff.1 hrange, hne,
      fun g hg => isInner_iff.1 (hinner g hg)⟩
    simp [ofString]

/-- No text is a memory operand in two ways. -/
theorem Bracketed.unique {v' : Int} {inner' : Text} (h : Bracketed Loose t v inner)
    (h' : Bracketed Loose t v' inner') : v' = v ∧ inner' = inner := by
  obtain ⟨s, hsplit, hoffset⟩ := bracketed_iff.1 h
  obtain ⟨s', hsplit', hoffset'⟩ := bracketed_iff.1 h'
  rw [hsplit, Option.some.injEq, Prod.mk.injEq] at hsplit'
  obtain ⟨rfl, rfl⟩ := hsplit'
  rw [hoffset, Option.some.injEq] at hoffset'
  exact ⟨hoffset'.symm, rfl⟩

theorem parse_of_bracketed (h : Bracketed Loose token.trim v inner) :
    parse token = (Register.parse inner).map fun r => ⟨v, r⟩ := by
  obtain ⟨s, hsplit, hoffset⟩ := bracketed_iff.1 h
  simp only [parse, hsplit, hoffset]
  cases Register.parse inner with
  | ok r => rfl
  | error fault => rfl

theorem parse_of_not_bracketed (h : ∀ v inner, ¬ Bracketed Loose token.trim v inner) :
    ∃ fault, parse token = .error fault ∧ fault.kind = .operandFormat := by
  cases hsplit : split? token.trim with
  | none => exact ⟨.malformedMemory token.trim, by simp only [parse, hsplit]; rfl, rfl⟩
  | some parts =>
    obtain ⟨s, inner⟩ := parts
    cases hoffset : offset? s with
    | none => exact ⟨.offsetTooLarge s, by simp only [parse, hsplit, hoffset]; rfl, rfl⟩
    | some v => exact absurd (bracketed_iff.2 ⟨s, hsplit, hoffset⟩) (h v inner)

end Reader

section Answer

variable {Allowed : Glyph → Prop} {Names : Text → Register → Prop} {t inner token : Text} {v : Int}

theorem Bracketed.mono {Allowed' : Glyph → Prop} (h : Bracketed Allowed t v inner)
    (hallowed : ∀ g ∈ inner, Allowed g → Allowed' g) : Bracketed Allowed' t v inner :=
  ⟨h.enclosed, h.range, h.nonempty, fun g hg => hallowed g hg (h.allowed g hg)⟩

/-- The five blanks are white space among others. -/
theorem Tight.loose {g : Glyph} (h : Tight g) : Loose g := by
  have hblank : ∀ g ∈ [' ', '\t', '\n', '\x0c', '\r'].map Glyph.scalar, g.isBlank = true := by
    decide
  refine ⟨h.1, h.2.1, fun hmem => ?_⟩
  exact Bool.false_ne_true (h.2.2.symm.trans (hblank g hmem))

/-- Where the parts of the text are known, the answer is that of the register's reader. -/
theorem answers_of_bracketed (h : Bracketed Allowed t v inner)
    (hunique : ∀ v' inner', Bracketed Allowed t v' inner' → v' = v ∧ inner' = inner)
    (hnames : ∀ r, Register.parse token = .ok r ↔ Names inner r) :
    Answers Allowed Names t ((Register.parse token).map fun r => ⟨v, r⟩) := by
  have hparts (v' : Int) (inner' : Text) :
      Bracketed Allowed t v' inner' ↔ v' = v ∧ inner' = inner := by
    refine ⟨hunique v' inner', ?_⟩
    rintro ⟨rfl, rfl⟩
    exact h
  cases hparse : Register.parse token with
  | ok r =>
    have hr (r' : Register) : Names inner r' ↔ r' = r := by
      rw [← hnames, hparse, Except.ok.injEq, eq_comm]
    refine ⟨fun v' r' => ?_, ?_, ?_⟩
    · simp [Except.map, hparts, and_assoc, hr, eq_comm]
    · simp [Except.map, hparts, and_assoc, hr]
    · simp [Except.map, hparts]
  | error fault =>
    have hr (r : Register) : ¬ Names inner r := by
      rw [← hnames, hparse]
      nofun
    have hkind := Register.kind_of_parse_eq_error hparse
    refine ⟨fun v' r' => ?_, ?_, ?_⟩
    · simp [Except.map, hparts, and_assoc, hr]
    · simp [Except.map, hparts, and_assoc, hr, hkind]
    · simp [Except.map, hparts, hkind]

theorem answers_of_not_bracketed (h : ∀ v inner, ¬ Bracketed Allowed t v inner) {fault : Fault}
    (hkind : fault.kind = .operandFormat) : Answers Allowed Names t (.error fault) := by
  refine ⟨fun v r => ?_, ?_, ?_⟩
  · simp [h]
  · simp [h, hkind]
  · simp [h, hkind]

theorem parse_answers_loose (token : Text) :
    Answers Loose (fun inner r => Register.Named inner.trim r) token.trim (parse token) := by
  by_cases h : ∃ v inner, Bracketed Loose token.trim v inner
  · obtain ⟨v, inner, hinner⟩ := h
    rw [parse_of_bracketed hinner]
    exact answers_of_bracketed hinner (fun _ _ => hinner.unique) fun r => Register.parse_eq_ok_iff
  · have hnone : ∀ v inner, ¬ Bracketed Loose token.trim v inner :=
      fun v inner hinner => h ⟨v, inner, hinner⟩
    obtain ⟨fault, hparse, hkind⟩ := parse_of_not_bracketed hnone
    rw [hparse]
    exact answers_of_not_bracketed hnone hkind

theorem Bracketed.loose (h : Bracketed Tight t v inner) : Bracketed Loose t v inner :=
  h.mono fun _ _ => Tight.loose

theorem parse_answers_tight
    (h : ¬ ∃ v inner, Bracketed Loose token.trim v inner ∧ ∃ g ∈ inner, g.isBlank = true) :
    Answers Tight Register.Named token.trim (parse token) := by
  by_cases hex : ∃ v inner, Bracketed Loose token.trim v inner
  · obtain ⟨v, inner, hinner⟩ := hex
    have hsolid : inner.Solid := by
      intro g hg
      by_contra hblank
      exact h ⟨v, inner, hinner, g, hg, by simpa using hblank⟩
    have htight : Bracketed Tight token.trim v inner :=
      hinner.mono fun g hg hloose => ⟨hloose.1, hloose.2.1, hsolid g hg⟩
    rw [parse_of_bracketed hinner]
    refine answers_of_bracketed htight (fun _ _ h' => hinner.unique h'.loose) fun r => ?_
    rw [Register.parse_eq_ok_iff, Text.trim_of_solid hsolid]
  · have hnone : ∀ v inner, ¬ Bracketed Loose token.trim v inner :=
      fun v inner hinner => hex ⟨v, inner, hinner⟩
    obtain ⟨fault, hparse, hkind⟩ := parse_of_not_bracketed hnone
    rw [hparse]
    exact answers_of_not_bracketed (fun v inner h' => hnone v inner h'.loose) hkind

/-- A text is a memory operand if it is an offset and, in parentheses, a text without parentheses
and without the five blanks that names a register once it is trimmed. This is the rule that no white
space of any kind may stand in a memory operand, exactly for the texts that do not have another
blank between their parentheses. -/
theorem parse_follows_grammar_iff (token : Text) :
    Answers Loose (fun inner r => Register.Named inner.trim r) token.trim (parse token) ∧
    (Answers Tight Register.Named token.trim (parse token) ↔
      ¬ ∃ v inner, Bracketed Loose token.trim v inner ∧ ∃ g ∈ inner, g.isBlank = true) := by
  refine ⟨parse_answers_loose token, fun hanswers => ?_, parse_answers_tight⟩
  rintro ⟨v, inner, hinner, g, hg, hblank⟩
  -- Nothing in parentheses is tight, so the form is at fault, where the register's reader is asked.
  have hnone : ∀ v' inner', ¬ Bracketed Tight token.trim v' inner' := by
    intro v' inner' htight
    obtain ⟨rfl, rfl⟩ := hinner.unique htight.loose
    rw [(htight.allowed g hg).2.2] at hblank
    cases hblank
  have hloose := (parse_answers_loose token).malformed_iff.1 (hanswers.malformed_iff.2 hnone)
  exact hloose v inner hinner

example : parse (ofString "8(\x0bx5)") = .ok ⟨8, 5⟩ := rfl

end Answer

end MemoryOperand

end Rv32i
