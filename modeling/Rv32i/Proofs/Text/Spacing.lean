import Mathlib.Data.List.Chain
import Rv32i.Proofs.Text.Blank

/-!
# Single spaces

Fields that are joined by spaces have single spaces between them, and so has every part of the text.
Without the blanks at its ends such a part is squeezed.
-/

set_option autoImplicit false

namespace Rv32i

namespace Text

structure SingleSpaced (t : Text) : Prop where
  apart : t.IsChain fun g h => g.isBlank = true → h.isBlank = false
  spaces : ∀ g ∈ t, g.isBlank = true → g = .scalar ' '

section Spacing

variable {s t : Text}

theorem SingleSpaced.of_isInfix (h : t.SingleSpaced) (hs : s <:+: t) : s.SingleSpaced := by
  obtain ⟨a, b, rfl⟩ := hs
  constructor
  · exact h.apart.left_of_append.right_of_append
  · intro g hg
    exact h.spaces g (List.mem_append_left b (List.mem_append_right a hg))

theorem Solid.singleSpaced (h : t.Solid) : t.SingleSpaced := by
  constructor
  · apply List.Pairwise.isChain
    apply List.pairwise_of_forall_mem_list
    exact fun _ _ g hg _ => h g hg
  · intro g hg hblank
    rw [h g hg] at hblank
    cases hblank

theorem SingleSpaced.field_append {f : Text} (hf : f.IsField) (h : t.SingleSpaced)
    (hhead : ∀ g ∈ t.head?, g.isBlank = false) : SingleSpaced (f ++ .scalar ' ' :: t) := by
  have hfield := Solid.singleSpaced hf.2
  constructor
  · apply hfield.apart.append
    · exact List.isChain_cons.2 ⟨fun g hg _ => hhead g hg, h.apart⟩
    · intro g hg _ _ hblank
      rw [hf.2 g (List.mem_of_getLast? hg)] at hblank
      cases hblank
  · intro g hg hblank
    rcases List.mem_append.1 hg with hg | hg
    · exact hfield.spaces g hg hblank
    · rcases List.mem_cons.1 hg with rfl | hg
      · rfl
      · exact h.spaces g hg hblank

theorem squeezed_intercalate {fs : List Text} (h : ∀ f ∈ fs, f.IsField) :
    Squeezed ([.scalar ' '].intercalate fs) := by
  rw [Squeezed, squeeze, fields_intercalate h]

theorem singleSpaced_intercalate {fs : List Text} (h : ∀ f ∈ fs, f.IsField) :
    SingleSpaced ([.scalar ' '].intercalate fs) := by
  induction fs with
  | nil => exact ⟨List.isChain_nil, nofun⟩
  | cons f fs ih =>
    have hf := h f List.mem_cons_self
    have hfs : ∀ f' ∈ fs, f'.IsField := fun f' hf' => h f' (List.mem_cons_of_mem f hf')
    by_cases hnil : fs = []
    · rw [hnil, List.intercalate_singleton]
      exact Solid.singleSpaced hf.2
    · rw [List.intercalate_cons_of_ne_nil hnil, List.append_assoc, List.singleton_append]
      apply SingleSpaced.field_append hf (ih hfs)
      rw [← (squeezed_intercalate hfs).trim_eq]
      exact head?_trim _

/-- The induction is on the fields: each starts the text, and one space and the others follow. -/
theorem SingleSpaced.squeezed (h : t.SingleSpaced) (hhead : ∀ g ∈ t.head?, g.isBlank = false)
    (hlast : ∀ g ∈ t.getLast?, g.isBlank = false) : t.Squeezed := by
  generalize hfields : t.fields = fs
  induction fs generalizing t with
  | nil =>
    have htrim := trim_eq_nil_iff.2 (fields_eq_nil_iff.1 hfields)
    rw [trim_eq_self hhead hlast] at htrim
    rw [htrim]
    rfl
  | cons f fs ih =>
    have hf : f.IsField := isField_of_mem (hfields ▸ List.mem_cons_self)
    obtain ⟨rest, rfl, hrest, hblank⟩ := exists_first_field hhead hfields
    cases rest with
    | nil =>
      rw [List.append_nil]
      exact squeezed_of_isField hf
    | cons g rest =>
      have hg := hblank g rfl
      have hspace := h.spaces g (by simp) hg
      have hchain := List.isChain_cons.1 h.apart.right_of_append
      have hend : (f ++ g :: rest).getLast? = (g :: rest).getLast? :=
        List.getLast?_append_of_ne_nil f (List.cons_ne_nil g rest)
      have hne : rest ≠ [] := by
        intro hnil
        rw [hend, hnil] at hlast
        simp [hlast g rfl] at hg
      have hafter : Squeezed rest := by
        apply ih
        · exact ⟨hchain.2, fun g' hg' => h.spaces g' (by simp [hg'])⟩
        · exact fun g' hg' => hchain.1 g' hg' hg
        · intro g' hg'
          apply hlast g'
          rw [hend, List.getLast?_cons_of_ne_nil hne]
          exact hg'
        · rw [← hrest, fields_cons_of_blank hg]
      have hfs : fields rest ≠ [] := by
        intro hnil
        rw [Squeezed, squeeze, hnil] at hafter
        exact hne hafter.symm
      rw [Squeezed, squeeze_append_of_blank (by simp [fields_of_isField hf]) rest hg, if_neg hfs,
        squeezed_of_isField hf, hafter, hspace]

theorem trim_isInfix (t : Text) : t.trim <:+: t := by
  obtain ⟨a, b, ht, -, -⟩ := exists_blank_trim t
  exact ⟨a, b, ht.symm⟩

theorem SingleSpaced.squeezed_trim (h : t.SingleSpaced) : t.trim.Squeezed :=
  (h.of_isInfix t.trim_isInfix).squeezed t.head?_trim t.getLast?_trim

end Spacing

end Text

end Rv32i
