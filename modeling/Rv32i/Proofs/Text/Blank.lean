import Mathlib.Data.List.DropRight
import Rv32i.Text.Blank

/-!
# White space at the ends and between fields

Trimming removes blanks at the ends and nothing else. Fields are the solid pieces between blanks;
putting them back together with single spaces squeezes a text, and what is squeezed already is left
as it is.
-/

set_option autoImplicit false

namespace Rv32i

namespace Text

def Blank (t : Text) : Prop := ∀ g ∈ t, g.isBlank = true

def Solid (t : Text) : Prop := ∀ g ∈ t, g.isBlank = false

def trimBytes (bytes : List UInt8) : List UInt8 := (ofBytes bytes).trim.toBytes

/-- Trimming takes a blank text off each end. -/
theorem exists_blank_trim (t : Text) : ∃ a b, t = a ++ t.trim ++ b ∧ a.Blank ∧ b.Blank := by
  refine ⟨t.takeWhile Glyph.isBlank, t.trimLeft.rtakeWhile Glyph.isBlank, ?_, ?_, ?_⟩
  · have hright : t.trim ++ t.trimLeft.rtakeWhile Glyph.isBlank = t.trimLeft :=
      List.rdropWhile_append_rtakeWhile
    rw [List.append_assoc, hright, trimLeft, List.takeWhile_append_dropWhile]
  · exact fun g hg => List.mem_takeWhile_imp hg
  · exact fun g hg => List.mem_rtakeWhile_imp hg

theorem trim_eq_nil_iff {t : Text} : t.trim = [] ↔ t.Blank := by
  constructor
  · intro h
    obtain ⟨a, b, ht, ha, hb⟩ := exists_blank_trim t
    rw [ht, h]
    intro g hg
    simp only [List.append_nil, List.mem_append] at hg
    exact hg.elim (ha g) (hb g)
  · intro h
    have hleft : t.trimLeft = [] := List.dropWhile_eq_nil_iff.2 h
    rw [trim, hleft]
    rfl

/-- A text is left as it is if its first and its last glyph are not blank. -/
theorem trim_eq_self {t : Text} (hhead : ∀ g ∈ t.head?, g.isBlank = false)
    (hlast : ∀ g ∈ t.getLast?, g.isBlank = false) : t.trim = t := by
  have hleft : t.trimLeft = t := by
    cases t with
    | nil => rfl
    | cons g t => simp [trimLeft, hhead g rfl]
  rw [trim, hleft]
  apply List.rdropWhile_eq_self_iff.2
  intro hne
  simpa using hlast _ (List.getLast?_eq_getLast_of_ne_nil hne)

theorem head?_trim (t : Text) : ∀ g ∈ t.trim.head?, g.isBlank = false := by
  intro g hg
  have hstart : t.trim <+: t.trimLeft := List.rdropWhile_prefix _ _
  have hleft : t.trimLeft.head? = some g := by
    obtain ⟨rest, hrest⟩ := hstart
    rw [← hrest, List.head?_append, hg]
    rfl
  have hnot := List.head?_dropWhile_not Glyph.isBlank t
  rw [← trimLeft, hleft] at hnot
  simpa using hnot

theorem getLast?_trim (t : Text) : ∀ g ∈ t.trim.getLast?, g.isBlank = false := by
  intro g hg
  have hne : t.trim ≠ [] := by
    intro hnil
    rw [hnil] at hg
    cases hg
  rw [List.getLast?_eq_getLast_of_ne_nil hne, Option.mem_some_iff] at hg
  rw [← hg]
  exact eq_false_of_ne_true (List.rdropWhile_last_not Glyph.isBlank t.trimLeft hne)

/-- Nothing is left to trim. -/
theorem trim_trim (t : Text) : t.trim.trim = t.trim := trim_eq_self t.head?_trim t.getLast?_trim

theorem trim_of_solid {t : Text} (h : t.Solid) : t.trim = t :=
  trim_eq_self (fun _ hg => h _ (List.mem_of_head? hg)) (fun _ hg => h _ (List.mem_of_getLast? hg))

theorem trim_cons_of_blank {g : Glyph} (h : g.isBlank = true) (t : Text) :
    trim (g :: t) = t.trim := by
  simp [trim, trimLeft, h]

theorem trim_blank_append {a : Text} (ha : a.Blank) (t : Text) : trim (a ++ t) = t.trim := by
  rw [trim, trimLeft, List.dropWhile_append_of_pos ha]
  rfl

theorem trimRight_append_blank {b : Text} (hb : b.Blank) (t : Text) :
    trimRight (t ++ b) = t.trimRight := by
  have hreverse : ∀ g ∈ b.reverse, g.isBlank = true := fun g hg => hb g (List.mem_reverse.1 hg)
  rw [trimRight, List.reverse_append, List.dropWhile_append_of_pos hreverse]
  rfl

theorem trim_append_blank {b : Text} (hb : b.Blank) (t : Text) : trim (t ++ b) = t.trim := by
  have hleft : trimLeft (t ++ b) = if t.trimLeft.isEmpty then b.trimLeft else t.trimLeft ++ b :=
    List.dropWhile_append
  rw [trim, hleft]
  split
  · next hnil =>
    have hblank : b.trimLeft = [] := List.dropWhile_eq_nil_iff.2 hb
    rw [hblank, trim, List.isEmpty_iff.1 hnil]
  · rw [trimRight_append_blank hb, trim]

section Pieces

variable {p : Glyph → Bool}

theorem not_of_mem_splitOnP {t piece : Text} (h : piece ∈ t.splitOnP p) :
    ∀ g ∈ piece, p g = false := by
  induction t generalizing piece with
  | nil =>
    simp only [List.splitOnP_nil, List.mem_singleton] at h
    subst h
    nofun
  | cons g t ih =>
    obtain ⟨first, rest, hsplit⟩ := List.exists_cons_of_ne_nil (List.splitOnP_ne_nil p t)
    rw [List.splitOnP_cons_eq_if_modifyHead] at h
    by_cases hg : p g = true
    · rw [if_pos hg, List.mem_cons] at h
      rcases h with rfl | h
      · nofun
      · exact ih h
    · rw [if_neg hg, hsplit, List.modifyHead_cons, List.mem_cons] at h
      rw [hsplit] at ih
      rcases h with rfl | h
      · intro g' hg'
        rcases List.mem_cons.1 hg' with rfl | hg'
        · simpa using hg
        · exact ih List.mem_cons_self g' hg'
      · exact ih (List.mem_cons_of_mem _ h)

/-- The first piece stands at the front, which carries the induction. -/
theorem splitOnP_infix (t : Text) :
    ∃ first rest, t.splitOnP p = first :: rest ∧ first <+: t ∧ ∀ piece ∈ rest, piece <:+: t := by
  induction t with
  | nil => exact ⟨[], [], List.splitOnP_nil, List.prefix_rfl, nofun⟩
  | cons g t ih =>
    obtain ⟨first, rest, hsplit, hfirst, hrest⟩ := ih
    have hlonger {piece : Text} (h : piece <:+: t) : piece <:+: g :: t :=
      h.trans (List.suffix_cons g t).isInfix
    rw [List.splitOnP_cons_eq_if_modifyHead, hsplit]
    by_cases hg : p g = true
    · refine ⟨[], first :: rest, if_pos hg, List.nil_prefix, ?_⟩
      intro piece hpiece
      rcases List.mem_cons.1 hpiece with rfl | hpiece
      · exact hlonger hfirst.isInfix
      · exact hlonger (hrest piece hpiece)
    · refine ⟨g :: first, rest, if_neg hg, (List.prefix_cons_inj g).2 hfirst, ?_⟩
      exact fun piece hpiece => hlonger (hrest piece hpiece)

theorem infix_of_mem_splitOnP {t piece : Text} (h : piece ∈ t.splitOnP p) : piece <:+: t := by
  obtain ⟨first, rest, hsplit, hfirst, hrest⟩ := splitOnP_infix (p := p) t
  rw [hsplit] at h
  rcases List.mem_cons.1 h with rfl | h
  · exact hfirst.isInfix
  · exact hrest piece h

end Pieces

section Fields

def IsField (t : Text) : Prop := t ≠ [] ∧ t.Solid

theorem isField_of_mem {t f : Text} (h : f ∈ t.fields) : f.IsField := by
  rw [fields, List.mem_filter] at h
  exact ⟨by simpa using h.2, not_of_mem_splitOnP h.1⟩

theorem infix_of_mem_fields {t f : Text} (h : f ∈ t.fields) : f <:+: t :=
  infix_of_mem_splitOnP (List.mem_filter.1 h).1

theorem fields_append_of_blank (s t : Text) {g : Glyph} (h : g.isBlank = true) :
    fields (s ++ g :: t) = s.fields ++ t.fields := by
  rw [fields, List.splitOnP_append_cons _ _ h, List.filter_append]
  rfl

theorem fields_of_isField {t : Text} (h : t.IsField) : t.fields = [t] := by
  rw [fields, List.splitOnP_eq_singleton h.2]
  simp [h.1]

@[simp] theorem fields_nil : fields [] = [] := rfl

theorem fields_cons_of_blank {g : Glyph} (h : g.isBlank = true) (t : Text) :
    fields (g :: t) = t.fields := fields_append_of_blank [] t h

theorem fields_blank_append {a : Text} (ha : a.Blank) (t : Text) : fields (a ++ t) = t.fields := by
  induction a with
  | nil => rfl
  | cons g a ih =>
    rw [List.cons_append, fields_cons_of_blank (ha g List.mem_cons_self)]
    exact ih fun g' hg' => ha g' (List.mem_cons_of_mem _ hg')

theorem fields_append_blank {b : Text} (hb : b.Blank) (t : Text) : fields (t ++ b) = t.fields := by
  cases b with
  | nil => rw [List.append_nil]
  | cons g b =>
    have hrest : fields b = [] := by
      simpa using fields_blank_append (t := []) fun g' hg' => hb g' (List.mem_cons_of_mem _ hg')
    rw [fields_append_of_blank t b (hb g List.mem_cons_self), hrest, List.append_nil]

theorem fields_trim (t : Text) : t.trim.fields = t.fields := by
  obtain ⟨a, b, ht, ha, hb⟩ := exists_blank_trim t
  conv_rhs => rw [ht]
  rw [fields_append_blank hb, fields_blank_append ha]

theorem fields_cons_of_not_blank {g : Glyph} (h : g.isBlank = false) (t : Text) :
    ∃ first rest, fields (g :: t) = (g :: first) :: rest := by
  obtain ⟨first, rest, hsplit⟩ :=
    List.exists_cons_of_ne_nil (List.splitOnP_ne_nil Glyph.isBlank t)
  refine ⟨first, rest.filter (!·.isEmpty), ?_⟩
  rw [fields, List.splitOnP_cons_eq_if_modifyHead, if_neg (by simp [h]), hsplit]
  rfl

theorem fields_eq_nil_iff {t : Text} : t.fields = [] ↔ t.Blank := by
  constructor
  · intro h
    induction t with
    | nil => nofun
    | cons g t ih =>
      by_cases hg : g.isBlank = true
      · rw [fields_cons_of_blank hg] at h
        intro g' hg'
        rcases List.mem_cons.1 hg' with rfl | hg'
        · exact hg
        · exact ih h g' hg'
      · obtain ⟨first, rest, hfields⟩ := fields_cons_of_not_blank (by simpa using hg) t
        rw [hfields] at h
        nomatch h
  · intro h
    simpa using fields_append_blank h []

/-- A trimmed text without fields is empty. -/
theorem fields_trim_eq_nil_iff {t : Text} : t.trim.fields = [] ↔ t.trim = [] := by
  rw [fields_trim, fields_eq_nil_iff, trim_eq_nil_iff]

theorem fields_append_of_head? (s : Text) {t : Text} (h : ∀ g ∈ t.head?, g.isBlank = true) :
    fields (s ++ t) = s.fields ++ t.fields := by
  cases t with
  | nil => rw [List.append_nil, fields_nil, List.append_nil]
  | cons g t => rw [fields_append_of_blank s t (h g rfl), fields_cons_of_blank (h g rfl)]

/-- A text that does not start with a blank starts with its first field, up to the first blank. -/
theorem exists_first_field {t first : Text} {others : List Text}
    (hhead : ∀ g ∈ t.head?, g.isBlank = false) (h : t.fields = first :: others) :
    ∃ rest, t = first ++ rest ∧ rest.fields = others ∧ ∀ g ∈ rest.head?, g.isBlank = true := by
  have hsplit : t = t.takeWhile (!·.isBlank) ++ t.dropWhile (!·.isBlank) :=
    List.takeWhile_append_dropWhile.symm
  have hrest : ∀ g ∈ (t.dropWhile (!·.isBlank)).head?, g.isBlank = true := by
    intro g hg
    have hnot := List.head?_dropWhile_not (!·.isBlank) t
    rw [hg] at hnot
    simpa using hnot
  have hfirst : IsField (t.takeWhile (!·.isBlank)) := by
    constructor
    · cases t with
      | nil => cases h
      | cons g t => simp [hhead g rfl]
    · intro g hg
      simpa using List.mem_takeWhile_imp hg
  have hfields : t.fields = t.takeWhile (!·.isBlank) :: fields (t.dropWhile (!·.isBlank)) := by
    conv_lhs => rw [hsplit]
    rw [fields_append_of_head? _ hrest, fields_of_isField hfirst, List.singleton_append]
  rw [hfields] at h
  cases h
  exact ⟨_, hsplit, rfl, hrest⟩

end Fields

section Squeeze

def squeeze (t : Text) : Text := [.scalar ' '].intercalate t.fields

def Squeezed (t : Text) : Prop := t.squeeze = t

theorem squeezed_of_isField {t : Text} (h : t.IsField) : t.Squeezed := by
  rw [Squeezed, squeeze, fields_of_isField h, List.intercalate_singleton]

theorem fields_intercalate {fs : List Text} (h : ∀ f ∈ fs, f.IsField) :
    fields ([.scalar ' '].intercalate fs) = fs := by
  induction fs with
  | nil => rfl
  | cons f fs ih =>
    have hf := fields_of_isField (h f List.mem_cons_self)
    have hfs := ih fun f' hf' => h f' (List.mem_cons_of_mem _ hf')
    cases fs with
    | nil => rw [List.intercalate_singleton, hf]
    | cons f' fs =>
      rw [List.intercalate_cons_cons, List.append_assoc, List.singleton_append,
        fields_append_of_blank _ _ rfl, hf, hfs, List.singleton_append]

theorem intercalate_append (sep : Text) {as bs : List Text} (ha : as ≠ []) (hb : bs ≠ []) :
    sep.intercalate (as ++ bs) = sep.intercalate as ++ sep ++ sep.intercalate bs := by
  induction as with
  | nil => exact absurd rfl ha
  | cons a as ih =>
    rw [List.cons_append, List.intercalate_cons_of_ne_nil (by simp [hb])]
    by_cases has : as = []
    · rw [has, List.nil_append, List.intercalate_singleton]
    · rw [ih has, List.intercalate_cons_of_ne_nil has]
      simp only [List.append_assoc]

theorem intercalate_concat_append (sep : Text) (init : List Text) (last t : Text) :
    sep.intercalate (init ++ [last]) ++ t = sep.intercalate (init ++ [last ++ t]) := by
  by_cases h : init = []
  · simp [h]
  · rw [intercalate_append sep h (by simp), intercalate_append sep h (by simp)]
    simp

theorem not_mem_intercalate {sep : Text} {ts : List Text} {g : Glyph} (hsep : g ∉ sep)
    (h : ∀ t ∈ ts, g ∉ t) : g ∉ sep.intercalate ts := by
  induction ts with
  | nil => exact List.not_mem_nil
  | cons t ts ih =>
    have ht := h t List.mem_cons_self
    have hrest := ih fun t' ht' => h t' (List.mem_cons_of_mem _ ht')
    by_cases hts : ts = []
    · rwa [hts, List.intercalate_singleton]
    · rw [List.intercalate_cons_of_ne_nil hts, List.mem_append, List.mem_append]
      rintro ((hg | hg) | hg)
      · exact ht hg
      · exact hsep hg
      · exact hrest hg

theorem squeeze_append_of_blank {s : Text} (hs : s.fields ≠ []) (t : Text) {g : Glyph}
    (h : g.isBlank = true) :
    squeeze (s ++ g :: t) =
      if t.fields = [] then s.squeeze else s.squeeze ++ .scalar ' ' :: t.squeeze := by
  rw [squeeze, fields_append_of_blank _ _ h]
  split
  · next ht => rw [ht, List.append_nil, squeeze]
  · next ht =>
    rw [intercalate_append _ hs ht, List.append_assoc, List.singleton_append]
    rfl

theorem Squeezed.append_glyph {t : Text} (ht : t.Squeezed) {g : Glyph} (hg : g.isBlank = false) :
    Squeezed (t ++ [g]) := by
  have hglyph : IsField [g] := ⟨by simp, fun g' hg' => by rw [List.mem_singleton.1 hg', hg]⟩
  by_cases hne : t.fields = []
  · have hnil : t = [] := by rw [← ht, squeeze, hne, List.intercalate_nil]
    rw [hnil]
    exact squeezed_of_isField hglyph
  · -- The glyph joins the last field, and the fields before it stay.
    obtain ⟨init, last, hfields⟩ := (List.eq_nil_or_concat' t.fields).resolve_left hne
    have hfield : ∀ f ∈ init ++ [last], f.IsField := fun f hf => isField_of_mem (hfields ▸ hf)
    have hlast : IsField (last ++ [g]) := by
      refine ⟨by simp, fun g' hg' => ?_⟩
      rcases List.mem_append.1 hg' with hg' | hg'
      · exact (hfield last (by simp)).2 g' hg'
      · exact hglyph.2 g' hg'
    have hall : ∀ f ∈ init ++ [last ++ [g]], f.IsField := by
      intro f hf
      rcases List.mem_append.1 hf with hf | hf
      · exact hfield f (List.mem_append_left _ hf)
      · rwa [List.mem_singleton.1 hf]
    have hjoin : t ++ [g] = [.scalar ' '].intercalate (init ++ [last ++ [g]]) := by
      rw [← intercalate_concat_append, ← hfields]
      exact congrArg (· ++ [g]) ht.symm
    rw [Squeezed, squeeze, hjoin, fields_intercalate hall]

theorem Squeezed.trim_eq {t : Text} (h : t.Squeezed) : t.trim = t := by
  by_cases hne : t.fields = []
  · rw [← h, squeeze, hne]
    rfl
  apply trim_eq_self
  · intro g hg
    obtain ⟨f, fs, hfields⟩ := List.exists_cons_of_ne_nil hne
    have hf : f.IsField := isField_of_mem (hfields ▸ List.mem_cons_self)
    have hstart : t.head? = f.head? := by
      rw [← h, squeeze, hfields]
      by_cases hfs : fs = []
      · rw [hfs, List.intercalate_singleton]
      · rw [List.intercalate_cons_of_ne_nil hfs, List.append_assoc,
          List.head?_append_of_ne_nil _ hf.1]
    exact hf.2 g (List.mem_of_head? (hstart ▸ hg))
  · intro g hg
    obtain ⟨init, f, hfields⟩ := (List.eq_nil_or_concat' t.fields).resolve_left hne
    have hf : f.IsField := isField_of_mem (hfields ▸ List.mem_append_right _ List.mem_cons_self)
    have hend : t.getLast? = f.getLast? := by
      rw [← h, squeeze, hfields, ← List.nil_append f, ← intercalate_concat_append,
        List.getLast?_append_of_ne_nil _ hf.1, List.nil_append]
    exact hf.2 g (List.mem_of_getLast? (hend ▸ hg))

end Squeeze

section Plain

def isPlainGlyph (g : Glyph) : Bool :=
  !g.isBlank && !([':', ',', '#'].map Glyph.scalar).contains g

def Plain (t : Text) : Prop := t ≠ [] ∧ ∀ g ∈ t, isPlainGlyph g = true

variable {t : Text}

theorem Plain.isField (h : t.Plain) : t.IsField := by
  refine ⟨h.1, fun g hg => ?_⟩
  have hplain := h.2 g hg
  rw [isPlainGlyph, Bool.and_eq_true, Bool.not_eq_true'] at hplain
  exact hplain.1

theorem Plain.not_mem (h : t.Plain) {g : Glyph} (hg : isPlainGlyph g = false) : g ∉ t :=
  fun hmem => absurd (h.2 g hmem) (by simp [hg])

theorem Plain.trim_eq (h : t.Plain) : t.trim = t := trim_of_solid h.isField.2

theorem Plain.append {s : Text} (hs : s.Plain) (ht : ∀ g ∈ t, isPlainGlyph g = true) :
    Plain (s ++ t) := by
  refine ⟨by simp [hs.1], fun g hg => ?_⟩
  rcases List.mem_append.1 hg with hg | hg
  · exact hs.2 g hg
  · exact ht g hg

end Plain

end Text

end Rv32i
