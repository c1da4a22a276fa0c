import Rv32i.Operand
import Rv32i.Proofs.Register
import Rv32i.Proofs.Text.Blank
import Rv32i.Proofs.Text.Numeral

/-!
# Written operands are read back

A register written by name, a number written in decimal or in hexadecimal after its mark, and a
memory operand written from both denote what they were written from, under a table without labels.
-/

set_option autoImplicit false

namespace Rv32i

open Text (ofString)

namespace Register

inductive Spelling where
  | byName
  | byNumber
  deriving DecidableEq

def spelled (r : Register) : Spelling → Text
  | .byName => r.name
  | .byNumber => r.numberedName

theorem spelled_plain (r : Register) (s : Spelling) : (r.spelled s).Plain := by
  have hname : ∀ r : Register, r.name ≠ [] ∧ ∀ g ∈ r.name, Text.isPlainGlyph g = true := by decide
  have hnumber : ∀ r : Register, r.numberedName ≠ [] ∧
      ∀ g ∈ r.numberedName, Text.isPlainGlyph g = true := by decide
  cases s with
  | byName => exact hname r
  | byNumber => exact hnumber r

theorem parse_spelled (r : Register) (s : Spelling) : parse (r.spelled s) = .ok r := by
  have hname : ∀ r : Register, r.name.foldCase = r.name := by decide
  have hnumber : ∀ r : Register, r.numberedName.foldCase = r.numberedName := by decide
  rw [parse_eq_ok_iff, (r.spelled_plain s).trim_eq]
  cases s with
  | byName => exact .inr (.inl (hname r))
  | byNumber => exact .inl (hnumber r)

theorem name_plain (r : Register) : r.name.Plain := r.spelled_plain .byName

end Register

namespace Numeral

theorem isPlainGlyph_of_isDigit {base : Nat} (hbase : base ≤ 16) {g : Glyph} (h : IsDigit base g) :
    Text.isPlainGlyph g = true := by
  have hall : ∀ d < 16, Text.isPlainGlyph (.scalar (Nat.digitChar d)) = true := by decide
  obtain ⟨d, hd, rfl⟩ := h
  exact hall d (by omega)

theorem digits_plain {base : Nat} (hlow : 1 < base) (hhigh : base ≤ 16) (n : Nat) :
    (digits base n).Plain :=
  ⟨digits_ne_nil base n, fun _ hg => isPlainGlyph_of_isDigit hhigh (isDigit_of_mem_digits hlow hg)⟩

theorem signed_plain (v : Int) : (signed v).Plain := by
  cases v with
  | ofNat n => exact digits_plain (by decide) (by decide) n
  | negSucc n =>
    have hdecimal : (decimal (n + 1)).Plain := digits_plain (by decide) (by decide) (n + 1)
    exact Text.Plain.append (s := [.scalar '-']) ⟨by simp, by decide⟩ hdecimal.2

end Numeral

namespace Literal

open Numeral (IsDigit decimal signed)

theorem splitSign_of_isDigit {g : Glyph} (h : IsDigit 10 g) (t : Text) :
    splitSign (g :: t) = (false, g :: t) := by
  have hall : ∀ d < 10, Nat.digitChar d ≠ '-' ∧ Nat.digitChar d ≠ '+' := by decide
  obtain ⟨d, hd, rfl⟩ := h
  obtain ⟨hminus, hplus⟩ := hall d hd
  unfold splitSign
  split
  · next heq => simp [hminus] at heq
  · next heq => simp [hplus] at heq
  · rfl

theorem splitSign_decimal (n : Nat) (rest : Text) :
    splitSign (decimal n ++ rest) = (false, decimal n ++ rest) := by
  obtain ⟨g, t, hdecimal⟩ := List.exists_cons_of_ne_nil (Numeral.digits_ne_nil 10 n)
  have hg : IsDigit 10 g :=
    Numeral.isDigit_of_mem_digits (n := n) (by decide) (hdecimal ▸ List.mem_cons_self)
  rw [decimal, hdecimal]
  exact splitSign_of_isDigit hg _

theorem splitSign_signed (v : Int) (rest : Text) :
    splitSign (signed v ++ rest) = (decide (v < 0), decimal v.natAbs ++ rest) := by
  cases v with
  | ofNat n => exact splitSign_decimal n rest
  | negSucc n =>
    rw [decide_eq_true (Int.negSucc_lt_zero n)]
    rfl

theorem applySign_natAbs (v : Int) : applySign (decide (v < 0)) v.natAbs = v := by
  unfold applySign
  by_cases h : v < 0
  · rw [decide_eq_true h, if_pos rfl]
    omega
  · rw [decide_eq_false h, if_neg Bool.false_ne_true]
    omega

/-- No decimal numeral can be taken for one of another base. -/
theorem splitBase_of_isDigit {t : Text} (h : ∀ g ∈ t, IsDigit 10 g) : splitBase t = (10, t) := by
  have hall : ∀ d < 10, Nat.digitChar d ≠ 'x' ∧ Nat.digitChar d ≠ 'X' ∧
      Nat.digitChar d ≠ 'b' ∧ Nat.digitChar d ≠ 'B' := by decide
  unfold splitBase
  split
  · next mark g t =>
    obtain ⟨d, hd, hmark⟩ := h (.scalar mark) (by simp)
    cases hmark
    obtain ⟨hx, hX, hb, hB⟩ := hall d hd
    simp [hx, hX, hb, hB]
  · rfl

theorem parse?_signed {v : Int} (h : v.natAbs < int64Bound) : parse? (signed v) = some v := by
  have hdigits : ∀ g ∈ decimal v.natAbs, IsDigit 10 g := fun g hg =>
    Numeral.isDigit_of_mem_digits (by decide) hg
  have hsign := splitSign_signed v []
  rw [List.append_nil, List.append_nil] at hsign
  simp only [parse?, hsign, splitBase_of_isDigit hdigits]
  rw [decimal, Numeral.value?_digits (by decide) (by decide)]
  simp only [h, if_true, applySign_natAbs]

theorem parse?_hexadecimal {n : Nat} (h : n < int64Bound) :
    parse? (ofString "0x" ++ Numeral.hexadecimal n) = some (n : Int) := by
  obtain ⟨g, t, hdigits⟩ := List.exists_cons_of_ne_nil (Numeral.digits_ne_nil 16 n)
  have hsign : splitSign (ofString "0x" ++ g :: t) = (false, ofString "0x" ++ g :: t) := rfl
  have hbase : splitBase (ofString "0x" ++ g :: t) = (16, g :: t) := rfl
  have hvalue : Numeral.value? 16 (g :: t) = some n := by
    rw [← hdigits, Numeral.value?_digits (by decide) (by decide)]
  rw [Numeral.hexadecimal, hdigits]
  simp only [parse?, hsign, hbase, hvalue, h, if_true]
  rfl

end Literal

section Unlabelled

variable {token : Text} {v : Int}

theorem Immediate.resolve_empty (htrim : token.trim = token)
    (h : Literal.parse? token = some v) : Immediate.resolve token .empty = .ok v := by
  simp [resolve, htrim, h]

theorem Target.resolve_empty (h : Literal.parse? token = some v) (pc : Address) :
    Target.resolve token pc .empty = .ok v := by
  simp [resolve, h]

end Unlabelled

namespace MemoryOperand

open Numeral (IsDigit decimal signed)

def spelled (offset : Int) (base : Register) (s : Register.Spelling) : Text :=
  signed offset ++ [.scalar '('] ++ base.spelled s ++ [.scalar ')']

theorem spelled_plain (offset : Int) (base : Register) (s : Register.Spelling) :
    (spelled offset base s).Plain := by
  have hopen : Text.Plain (signed offset ++ [.scalar '(']) :=
    (Numeral.signed_plain offset).append (by decide)
  exact (hopen.append (base.spelled_plain s).2).append (by decide)

theorem isDigit_of_digit {g : Glyph} (h : IsDigit 10 g) : isDigit g = true := by
  obtain ⟨d, hd, rfl⟩ := h
  rw [isDigit, Numeral.digit?_digitChar (by decide) hd]
  rfl

theorem signed_no_parenthesis (v : Int) : ∀ g ∈ signed v, (g != .scalar '(') = true := by
  have hall : ∀ d < 10, Nat.digitChar d ≠ '(' := by decide
  have hdecimal : ∀ n, ∀ g ∈ decimal n, (g != .scalar '(') = true := by
    intro n g hg
    obtain ⟨d, hd, rfl⟩ : IsDigit 10 g := Numeral.isDigit_of_mem_digits (by decide) hg
    simp [hall d hd]
  intro g hg
  cases v with
  | ofNat n => exact hdecimal n g hg
  | negSucc n =>
    rcases List.mem_cons.1 hg with rfl | hg
    · decide
    · exact hdecimal (n + 1) g hg

theorem spelled_inner (r : Register) (s : Register.Spelling) :
    ∀ g ∈ r.spelled s, isInner g = true := by
  have hname : ∀ r : Register, ∀ g ∈ r.name, isInner g = true := by decide
  have hnumber : ∀ r : Register, ∀ g ∈ r.numberedName, isInner g = true := by decide
  cases s with
  | byName => exact hname r
  | byNumber => exact hnumber r

/-- What is needed of a text before the parentheses and one between them for both to be found. -/
theorem split?_enclosed {s digits inner : Text} {negative : Bool}
    (hsign : Literal.splitSign (s ++ .scalar '(' :: (inner ++ [.scalar ')'])) =
      (negative, digits ++ .scalar '(' :: (inner ++ [.scalar ')'])))
    (hs : ∀ g ∈ s, (g != .scalar '(') = true) (hdigits : ∀ g ∈ digits, isDigit g = true)
    (hne : digits ≠ []) (hinner : ∀ g ∈ inner, isInner g = true) (hinner' : inner ≠ []) :
    split? (s ++ .scalar '(' :: (inner ++ [.scalar ')'])) = some (s, inner) := by
  have hrest : List.dropWhile isDigit (digits ++ .scalar '(' :: (inner ++ [.scalar ')'])) =
      .scalar '(' :: (inner ++ [.scalar ')']) := by
    rw [List.dropWhile_append_of_pos hdigits]
    rfl
  have htaken : List.takeWhile isDigit (digits ++ .scalar '(' :: (inner ++ [.scalar ')'])) =
      digits := by
    rw [List.takeWhile_append_of_pos hdigits]
    exact List.append_nil _
  have hbetween : List.takeWhile isInner (inner ++ [.scalar ')']) = inner := by
    rw [List.takeWhile_append_of_pos hinner]
    exact List.append_nil _
  have hend : List.dropWhile isInner (inner ++ [.scalar ')']) = [.scalar ')'] := by
    rw [List.dropWhile_append_of_pos hinner]
    rfl
  have hbefore : List.takeWhile (· != .scalar '(') (s ++ .scalar '(' :: (inner ++ [.scalar ')'])) =
      s := by
    rw [List.takeWhile_append_of_pos hs]
    exact List.append_nil _
  rw [split?, hsign]
  simp only [hrest, htaken, hbetween, hend, hbefore]
  simp [hne, hinner']

theorem split?_spelled (offset : Int) (base : Register) (s : Register.Spelling) :
    split? (spelled offset base s) = some (signed offset, base.spelled s) := by
  have htext : spelled offset base s =
      signed offset ++ .scalar '(' :: (base.spelled s ++ [.scalar ')']) := by
    simp [spelled]
  rw [htext]
  apply split?_enclosed (Literal.splitSign_signed offset _) (signed_no_parenthesis offset)
  · exact fun g hg => isDigit_of_digit (Numeral.isDigit_of_mem_digits (by decide) hg)
  · exact Numeral.digits_ne_nil 10 _
  · exact spelled_inner base s
  · exact (base.spelled_plain s).1

theorem offset?_signed {v : Int} (h : isInt64 v) : offset? (signed v) = some v := by
  have hsign := Literal.splitSign_signed v []
  rw [List.append_nil, List.append_nil] at hsign
  simp only [offset?, hsign]
  rw [decimal, Numeral.value?_digits (by decide) (by decide)]
  simp [Literal.applySign_natAbs, h]

theorem parse_spelled {offset : Int} (h : isInt64 offset) (base : Register)
    (s : Register.Spelling) : parse (spelled offset base s) = .ok ⟨offset, base⟩ := by
  simp [parse, (spelled_plain offset base s).trim_eq, split?_spelled, offset?_signed h,
    Register.parse_spelled, bind, Except.bind, pure, Except.pure]

end MemoryOperand

end Rv32i
