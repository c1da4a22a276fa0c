import Mathlib.Data.List.Basic

/-!
# Computations that can fail

When a sequence of steps succeeds, and what holds after it.
-/

set_option autoImplicit false

namespace Rv32i

theorem bind_eq_ok {ε α β : Type} {x : Except ε α} {f : α → Except ε β} {b : β} :
    (x >>= f) = .ok b ↔ ∃ a, x = .ok a ∧ f a = .ok b := by
  cases x <;> simp [bind, Except.bind]

theorem ok_bind {ε α β : Type} (a : α) (f : α → Except ε β) : (.ok a >>= f) = f a := rfl

theorem bind_eq_error {ε α β : Type} {x : Except ε α} {f : α → Except ε β} {e : ε} :
    (x >>= f) = .error e ↔ x = .error e ∨ ∃ a, x = .ok a ∧ f a = .error e := by
  cases x <;> simp [bind, Except.bind]

theorem mapError_eq_ok {ε ε' α : Type} {x : Except ε α} {f : ε → ε'} {a : α} :
    x.mapError f = .ok a ↔ x = .ok a := by
  cases x <;> simp [Except.mapError]

theorem mapError_eq_error {ε ε' α : Type} {x : Except ε α} {f : ε → ε'} {e : ε'} :
    x.mapError f = .error e ↔ ∃ e', x = .error e' ∧ f e' = e := by
  cases x <;> simp [Except.mapError]

theorem toOption_eq_some {ε α : Type} {x : Except ε α} {a : α} :
    x.toOption = some a ↔ x = .ok a := by
  cases x <;> simp [Except.toOption]

theorem exists_eq_ok {ε α : Type} {x : Except ε α} (h : x.toOption.isSome = true) :
    ∃ a, x = .ok a := by
  obtain ⟨a, ha⟩ := Option.isSome_iff_exists.1 h
  exact ⟨a, toOption_eq_some.1 ha⟩

section Fold

variable {ε α β : Type} {f : β → α → Except ε β}

theorem foldlM_preserves (P : List α → β → Prop)
    (step : ∀ done x b b', P done b → f b x = .ok b' → P (done ++ [x]) b')
    {b r : β} (hstart : P [] b) {l : List α} (h : l.foldlM f b = .ok r) : P l r := by
  -- The elements already read are kept beside those still to come.
  have hrun : ∀ (rest done : List α) (b : β), P done b → rest.foldlM f b = .ok r →
      P (done ++ rest) r := by
    intro rest
    induction rest with
    | nil =>
      intro done b hb hr
      cases hr
      rwa [List.append_nil]
    | cons x rest ih =>
      intro done b hb hr
      rw [List.foldlM_cons, bind_eq_ok] at hr
      obtain ⟨b', hx, hrest⟩ := hr
      have hfinal := ih (done ++ [x]) b' (step done x b b' hb hx) hrest
      rwa [List.append_assoc, List.singleton_append] at hfinal
  exact hrun l [] b hstart h

theorem foldlM_progresses (P : List α → β → Prop) {l : List α}
    (step : ∀ done x b, done ++ [x] <+: l → P done b →
      ∃ b', f b x = .ok b' ∧ P (done ++ [x]) b')
    {b : β} (hstart : P [] b) : ∃ r, l.foldlM f b = .ok r ∧ P l r := by
  have hrun : ∀ (rest done : List α) (b : β), done ++ rest = l → P done b →
      ∃ r, rest.foldlM f b = .ok r ∧ P l r := by
    intro rest
    induction rest with
    | nil =>
      intro done b hl hb
      rw [List.append_nil] at hl
      exact ⟨b, rfl, hl ▸ hb⟩
    | cons x rest ih =>
      intro done b hl hb
      have hl' : done ++ [x] ++ rest = l := by rw [← hl, List.append_assoc, List.singleton_append]
      obtain ⟨b', hx, hb'⟩ := step done x b ⟨rest, hl'⟩ hb
      obtain ⟨r, hr, hfinal⟩ := ih (done ++ [x]) b' hl' hb'
      exact ⟨r, by rw [List.foldlM_cons, bind_eq_ok]; exact ⟨b', hx, hr⟩, hfinal⟩
  exact hrun l [] b rfl hstart

theorem foldlM_error {e : ε} {b : β} {l : List α} (h : l.foldlM f b = .error e) :
    ∃ x ∈ l, ∃ b', f b' x = .error e := by
  induction l generalizing b with
  | nil => cases h
  | cons x l ih =>
    rw [List.foldlM_cons] at h
    cases hx : f b x with
    | error e' =>
      rw [hx] at h
      cases h
      exact ⟨x, List.mem_cons_self, b, hx⟩
    | ok b' =>
      rw [hx] at h
      obtain ⟨x', hx', hfail⟩ := ih h
      exact ⟨x', List.mem_cons_of_mem x hx', hfail⟩

/-- The run ends at the first element that fails, and with its error. Which elements fail is told
by their index alone, since the state before them is known. -/
theorem foldlM_eq_error_iff (P : List α → β → Prop) (Fails : Nat → ε → Prop) {l : List α}
    (hok : ∀ done x b b', P done b → f b x = .ok b' → P (done ++ [x]) b')
    (herror : ∀ done x rest b e, l = done ++ x :: rest → P done b →
      (f b x = .error e ↔ Fails done.length e))
    {b : β} (hstart : P [] b) {e : ε} : l.foldlM f b = .error e ↔
      ∃ i < l.length, Fails i e ∧ ∀ j < i, ∀ e', ¬ Fails j e' := by
  have hrun : ∀ (rest done : List α) (b : β), l = done ++ rest → P done b →
      (∀ j < done.length, ∀ e', ¬ Fails j e') →
      (rest.foldlM f b = .error e ↔ ∃ i < l.length, Fails i e ∧ ∀ j < i, ∀ e', ¬ Fails j e') := by
    intro rest
    induction rest with
    | nil =>
      intro done b hl _ hdone
      rw [List.append_nil] at hl
      constructor
      · intro h
        cases h
      · rintro ⟨i, hi, hfails, -⟩
        exact absurd hfails (hdone i (hl ▸ hi) e)
    | cons x rest ih =>
      intro done b hl hb hdone
      have hx (e' : ε) := herror done x rest b e' hl hb
      have hlength : l.length = done.length + (rest.length + 1) := by simp [hl]
      rw [List.foldlM_cons]
      cases hstep : f b x with
      | error e' =>
        have hhere : Fails done.length e' := (hx e').1 hstep
        constructor
        · intro h
          cases h
          exact ⟨done.length, by omega, hhere, hdone⟩
        · rintro ⟨i, -, hfails, hfirst⟩
          have hle : done.length ≤ i := Nat.le_of_not_lt fun hlt => hdone i hlt e hfails
          have hge : i ≤ done.length := Nat.le_of_not_lt fun hlt => hfirst _ hlt e' hhere
          have hi : i = done.length := Nat.le_antisymm hge hle
          rw [hi] at hfails
          exact hstep.symm.trans ((hx e).2 hfails)
      | ok b' =>
        have hnone : ∀ j < (done ++ [x]).length, ∀ e', ¬ Fails j e' := by
          intro j hj e' hfails
          rw [List.length_append, List.length_singleton] at hj
          by_cases hlt : j < done.length
          · exact hdone j hlt e' hfails
          · have hlast : j = done.length := by omega
            rw [hlast] at hfails
            exact absurd (hstep.symm.trans ((hx e').2 hfails)) nofun
        exact ih (done ++ [x]) b' (by simp [hl]) (hok done x b b' hb hstep) hnone
  exact hrun l [] b rfl hstart nofun

end Fold

end Rv32i
