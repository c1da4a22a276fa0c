import Rv32i.Proofs.Except

/-!
# Runs side by side

Two computations that can fail are related if both succeed with related results or both fail with
related errors. Two runs over lists are related if their steps are, where each run may pass over
elements that do not change its state.
-/

set_option autoImplicit false

namespace Rv32i

inductive Related {ε ε' α β : Type} (E : ε → ε' → Prop) (R : α → β → Prop) :
    Except ε α → Except ε' β → Prop where
  | ok {a : α} {b : β} (h : R a b) : Related E R (.ok a) (.ok b)
  | error {e : ε} {e' : ε'} (h : E e e') : Related E R (.error e) (.error e')

namespace Related

variable {ε ε' α β : Type} {E : ε → ε' → Prop} {R : α → β → Prop}
variable {x : Except ε α} {y : Except ε' β}

theorem of_eq {E : ε → ε → Prop} {R : α → α → Prop} (hE : ∀ e, E e e) (hR : ∀ a, R a a)
    {x y : Except ε α} (h : x = y) : Related E R x y := by
  subst h
  cases x with
  | ok a => exact .ok (hR a)
  | error e => exact .error (hE e)

theorem ok_iff (h : Related E R x y) : (∃ a, x = .ok a) ↔ ∃ b, y = .ok b := by
  cases h with
  | ok h => exact ⟨fun _ => ⟨_, rfl⟩, fun _ => ⟨_, rfl⟩⟩
  | error h => simp

theorem rel_of_ok (h : Related E R x y) {a : α} {b : β} (hx : x = .ok a) (hy : y = .ok b) :
    R a b := by
  subst hx hy
  cases h with
  | ok h => exact h

theorem exists_error (h : Related E R x y) {e : ε} (hx : x = .error e) :
    ∃ e', y = .error e' ∧ E e e' := by
  subst hx
  cases h with
  | error h => exact ⟨_, rfl, h⟩

theorem bind {α' β' : Type} {R' : α' → β' → Prop} {f : α → Except ε α'} {g : β → Except ε' β'}
    (h : Related E R x y)
    (hnext : ∀ a b, x = .ok a → y = .ok b → R a b → Related E R' (f a) (g b)) :
    Related E R' (x >>= f) (y >>= g) := by
  cases h with
  | ok h => exact hnext _ _ rfl rfl h
  | error h => exact .error h

theorem mapError {φ φ' : Type} {F : φ → φ' → Prop} {f : ε → φ} {g : ε' → φ'}
    (h : Related E R x y) (hF : ∀ e e', E e e' → F (f e) (g e')) :
    Related F R (x.mapError f) (y.mapError g) := by
  cases h with
  | ok h => exact .ok h
  | error h => exact .error (hF _ _ h)

end Related

/-- The elements of one list stand for those of another, except for some on either side that are
passed over. -/
inductive Aligned {α : Type} (Skip : α → Prop) (L : α → α → Prop) : List α → List α → Prop where
  | nil : Aligned Skip L [] []
  | skipLeft {x : α} {xs ys : List α} (hx : Skip x) (h : Aligned Skip L xs ys) :
      Aligned Skip L (x :: xs) ys
  | skipRight {y : α} {xs ys : List α} (hy : Skip y) (h : Aligned Skip L xs ys) :
      Aligned Skip L xs (y :: ys)
  | cons {x y : α} {xs ys : List α} (hxy : L x y) (h : Aligned Skip L xs ys) :
      Aligned Skip L (x :: xs) (y :: ys)

theorem Aligned.imp {α : Type} {Skip Skip' : α → Prop} {L : α → α → Prop} {xs ys : List α}
    (h : Aligned Skip L xs ys) (hskip : ∀ x, Skip x → Skip' x) : Aligned Skip' L xs ys := by
  induction h with
  | nil => exact .nil
  | skipLeft hx _ ih => exact .skipLeft (hskip _ hx) ih
  | skipRight hy _ ih => exact .skipRight (hskip _ hy) ih
  | cons hxy _ ih => exact .cons hxy ih

/-- Lists with the same remarkable elements are aligned over the others. -/
theorem Aligned.of_filter_map_eq {α β : Type} {f : α → β} {p : β → Bool} {xs ys : List α}
    (h : (xs.map f).filter p = (ys.map f).filter p) :
    Aligned (fun x => p (f x) = false) (fun x y => f x = f y) xs ys := by
  induction xs generalizing ys with
  | nil =>
    induction ys with
    | nil => exact .nil
    | cons y ys ihy =>
      cases hy : p (f y) with
      | false =>
        rw [List.map_cons, List.filter_cons_of_neg (by simp [hy])] at h
        exact .skipRight hy (ihy h)
      | true =>
        rw [List.map_cons, List.filter_cons_of_pos hy] at h
        cases h
  | cons x xs ih =>
    cases hx : p (f x) with
    | false =>
      rw [List.map_cons, List.filter_cons_of_neg (by simp [hx])] at h
      exact .skipLeft hx (ih h)
    | true =>
      -- The partner of the first element comes after all that the other list passes over.
      rw [List.map_cons, List.filter_cons_of_pos hx] at h
      induction ys with
      | nil => cases h
      | cons y ys ihy =>
        cases hy : p (f y) with
        | false =>
          rw [List.map_cons, List.filter_cons_of_neg (by simp [hy])] at h
          exact .skipRight hy (ihy h)
        | true =>
          rw [List.map_cons, List.filter_cons_of_pos hy, List.cons.injEq] at h
          exact .cons h.1 (ih h.2)

theorem Aligned.of_map {α β : Type} {Skip : β → Prop} {L : β → β → Prop} {f g : α → β} {xs : List α}
    (h : ∀ x ∈ xs, L (f x) (g x)) : Aligned Skip L (xs.map f) (xs.map g) := by
  induction xs with
  | nil => exact .nil
  | cons x xs ih =>
    exact .cons (h x List.mem_cons_self) (ih fun x' hx' => h x' (List.mem_cons_of_mem x hx'))

/-- Runs over aligned lists stay related if each step keeps them so. -/
theorem foldlM_related {ε ε' α σ τ : Type} {E : ε → ε' → Prop} {R : σ → τ → Prop}
    {f : σ → α → Except ε σ} {g : τ → α → Except ε' τ} {Skip : α → Prop} {L : α → α → Prop}
    (hleft : ∀ s t x, R s t → Skip x → ∃ s', f s x = .ok s' ∧ R s' t)
    (hright : ∀ s t y, R s t → Skip y → ∃ t', g t y = .ok t' ∧ R s t')
    (hstep : ∀ s t x y, R s t → L x y → Related E R (f s x) (g t y))
    {xs ys : List α} (h : Aligned Skip L xs ys) {s : σ} {t : τ} (hstart : R s t) :
    Related E R (xs.foldlM f s) (ys.foldlM g t) := by
  induction h generalizing s t with
  | nil => exact .ok hstart
  | skipLeft hx _ ih =>
    obtain ⟨s', hs', hnext⟩ := hleft s t _ hstart hx
    rw [List.foldlM_cons, hs']
    exact ih hnext
  | skipRight hy _ ih =>
    obtain ⟨t', ht', hnext⟩ := hright s t _ hstart hy
    rw [List.foldlM_cons, ht']
    exact ih hnext
  | cons hxy _ ih =>
    rw [List.foldlM_cons, List.foldlM_cons]
    exact (hstep s t _ _ hstart hxy).bind fun _ _ _ _ hnext => ih hnext

end Rv32i
