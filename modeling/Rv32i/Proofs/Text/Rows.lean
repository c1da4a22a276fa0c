import Rv32i.Proofs.Text.Blank
import Rv32i.Proofs.Text.Glyph
import Rv32i.Proofs.Text.Numeral
import Rv32i.Rendering

/-!
# Rows

A row is a text of characters without a line feed. A text that consists of rows, each with a line
feed at its end, is told apart into these rows again, also from its bytes.
-/

set_option autoImplicit false

namespace Rv32i

open Text (ofString)

def Glyph.isInline : Glyph → Bool
  | .scalar c => c != '\n'
  | .stray _ => false

namespace Text

def Inline (t : Text) : Prop := ∀ g ∈ t, g.isInline = true

instance (t : Text) : Decidable t.Inline :=
  inferInstanceAs (Decidable (∀ g ∈ t, g.isInline = true))

section Inline

variable {s t : Text}

theorem inline_append : Inline (s ++ t) ↔ s.Inline ∧ t.Inline := List.forall_mem_append

theorem Inline.intercalate {sep : Text} (hsep : sep.Inline) {ts : List Text}
    (h : ∀ t ∈ ts, t.Inline) : Inline (sep.intercalate ts) := by
  induction ts with
  | nil => exact List.forall_mem_nil _
  | cons t ts ih =>
    have ht := h t List.mem_cons_self
    have hrest := ih fun t' ht' => h t' (List.mem_cons_of_mem _ ht')
    by_cases hts : ts = []
    · rwa [hts, List.intercalate_singleton]
    · rw [List.intercalate_cons_of_ne_nil hts]
      exact inline_append.2 ⟨inline_append.2 ⟨ht, hsep⟩, hrest⟩

theorem Inline.exists_scalar (h : t.Inline) {g : Glyph} (hg : g ∈ t) : ∃ c, g = .scalar c := by
  cases g with
  | scalar c => exact ⟨c, rfl⟩
  | stray b => cases h _ hg

theorem Inline.not_mem (h : t.Inline) : .scalar '\n' ∉ t :=
  fun hmem => absurd (h _ hmem) (by decide)

end Inline

end Text

namespace Numeral

theorem isInline_of_isDigit {base : Nat} (hbase : base ≤ 16) {g : Glyph} (h : IsDigit base g) :
    g.isInline = true := by
  have hall : ∀ d < 16, (Glyph.scalar (Nat.digitChar d)).isInline = true := by decide
  obtain ⟨d, hd, rfl⟩ := h
  exact hall d (by omega)

theorem places_inline {base : Nat} (hlow : 0 < base) (hhigh : base ≤ 16) (width n : Nat) :
    (places base width n).Inline :=
  fun _ hg => isInline_of_isDigit hhigh (isDigit_of_mem_places hlow hg)

theorem digits_inline {base : Nat} (hlow : 1 < base) (hhigh : base ≤ 16) (n : Nat) :
    (digits base n).Inline :=
  fun _ hg => isInline_of_isDigit hhigh (isDigit_of_mem_digits hlow hg)

theorem signed_inline (v : Int) : (signed v).Inline := by
  cases v with
  | ofNat n => exact digits_inline (by decide) (by decide) n
  | negSucc n =>
    exact List.forall_mem_cons.2 ⟨rfl, digits_inline (by decide) (by decide) (n + 1)⟩

end Numeral

namespace Text

def rows? (t : Text) : Option (List Text) :=
  let pieces := t.splitOn (.scalar '\n')
  if pieces.getLast? = some [] then some pieces.dropLast else none

theorem splitOn_endLine {row : Text} (h : row.Inline) (t : Text) :
    (Listing.endLine row ++ t).splitOn (.scalar '\n') = row :: t.splitOn (.scalar '\n') := by
  have hpiece : row.splitOnP (· == .scalar '\n') = [row] := by
    apply List.splitOnP_eq_singleton
    intro g hg
    rw [beq_eq_false_iff_ne]
    rintro rfl
    exact h.not_mem hg
  have hjoin : Listing.endLine row ++ t = row ++ .scalar '\n' :: t := by
    rw [Listing.endLine, List.append_assoc, List.singleton_append]
  rw [hjoin, List.splitOn, List.splitOnP_append_cons _ _ rfl, hpiece, List.singleton_append]
  rfl

theorem splitOn_rows {rows : List Text} (h : ∀ row ∈ rows, row.Inline) :
    (rows.flatMap Listing.endLine).splitOn (.scalar '\n') = rows ++ [[]] := by
  induction rows with
  | nil => rfl
  | cons row rows ih =>
    rw [List.flatMap_cons, splitOn_endLine (h row List.mem_cons_self),
      ih fun row' hrow' => h row' (List.mem_cons_of_mem _ hrow'), List.cons_append]

theorem rows?_flatMap {rows : List Text} (h : ∀ row ∈ rows, row.Inline) :
    rows? (rows.flatMap Listing.endLine) = some rows := by
  simp [rows?, splitOn_rows h]

theorem rows?_toBytes {rows : List Text} (h : ∀ row ∈ rows, row.Inline) :
    rows? (ofBytes (toBytes (rows.flatMap Listing.endLine))) = some rows := by
  have hscalar : ∀ g ∈ rows.flatMap Listing.endLine, ∃ c, g = .scalar c := by
    intro g hg
    obtain ⟨row, hrow, hg⟩ := List.mem_flatMap.1 hg
    rcases List.mem_append.1 hg with hg | hg
    · exact (h row hrow).exists_scalar hg
    · exact ⟨'\n', List.mem_singleton.1 hg⟩
  have hdecoded := decoded_of_scalar hscalar
  rw [Decoded] at hdecoded
  rw [hdecoded, rows?_flatMap h]

end Text

end Rv32i
