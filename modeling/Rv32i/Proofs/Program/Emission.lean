import Rv32i.Proofs.Program.Survey

/-!
# What the emission produces

After some lines the emission has one word for each line that holds an instruction, in order. The
two passes look at a line in different ways, but they agree on which lines these are.
-/

set_option autoImplicit false

namespace Rv32i

/-- A list that runs along another one, entry by entry, still does when both are extended. -/
theorem pointwise_concat {α β : Type} {R : Nat → α → β → Prop} {xs : List α} {ys : List β}
    (hlength : ys.length = xs.length)
    (h : ∀ k x, xs[k]? = some x → ∃ y, ys[k]? = some y ∧ R k x y) {x : α} {y : β}
    (hlast : R xs.length x y) :
    ∀ k x', (xs ++ [x])[k]? = some x' → ∃ y', (ys ++ [y])[k]? = some y' ∧ R k x' y' := by
  intro k x' hx'
  by_cases hlt : k < xs.length
  · rw [List.getElem?_append_left hlt] at hx'
    rw [List.getElem?_append_left (hlength ▸ hlt)]
    exact h k x' hx'
  · have hk : k = xs.length := by
      have hbound := (List.getElem?_eq_some_iff.1 hx').1
      rw [List.length_append, List.length_singleton] at hbound
      omega
    subst hk
    rw [List.getElem?_concat_length, Option.some.injEq] at hx'
    refine ⟨y, ?_, hx' ▸ hlast⟩
    rw [← hlength, List.getElem?_concat_length]

namespace Program

def Emits (symbols : SymbolTable) (k : Nat) (raw : Text) (w : PlacedWord) : Prop :=
  ∃ label d operands, Line.parse raw = .ok ⟨label, some ⟨d, operands⟩⟩ ∧
    w.address = wordAddress k ∧ d.encode operands (wordAddress k) symbols = .ok w.value

end Program

namespace Emission

open Program

variable {symbols : SymbolTable} {e e' : Emission} {done : List Text} {raw : Text}

/-- All that a step of the emission can do. -/
theorem step_eq_ok : e.step symbols raw = .ok e' ↔
    (∃ label, Line.parse raw = .ok ⟨label, none⟩ ∧ e' = { e with line := e.line + 1 }) ∨
    ∃ label d operands value, Line.parse raw = .ok ⟨label, some ⟨d, operands⟩⟩ ∧
      d.encode operands e.pc symbols = .ok value ∧
      e' = ⟨e.line + 1, e.pc + wordSize, ⟨e.pc, value⟩ :: e.words⟩ := by
  rw [step, bind_eq_ok]
  constructor
  · rintro ⟨⟨label, instruction⟩, hparse, hrest⟩
    cases instruction with
    | none =>
      cases hrest
      exact .inl ⟨label, hparse, rfl⟩
    | some instruction =>
      obtain ⟨value, hvalue, hrest⟩ := bind_eq_ok.1 hrest
      cases hrest
      exact .inr ⟨label, instruction.descriptor, instruction.operands, value, hparse, hvalue, rfl⟩
  · rintro (⟨label, hparse, rfl⟩ | ⟨label, d, operands, value, hparse, hvalue, rfl⟩)
    · exact ⟨_, hparse, rfl⟩
    · exact ⟨_, hparse, bind_eq_ok.2 ⟨value, hvalue, rfl⟩⟩

structure After (symbols : SymbolTable) (e : Emission) (done : List Text) : Prop where
  pc : e.pc = wordAddress (instructionLines done).length
  count : e.words.length = (instructionLines done).length
  words : ∀ k raw, (instructionLines done)[k]? = some raw →
    ∃ w, e.words.reverse[k]? = some w ∧ Emits symbols k raw w

theorem after_start : After symbols {} [] := ⟨rfl, rfl, nofun⟩

theorem After.step (h : After symbols e done) (hstep : e.step symbols raw = .ok e') :
    After symbols e' (done ++ [raw]) := by
  obtain ⟨label, hparse, rfl⟩ | ⟨label, d, operands, value, hparse, hvalue, rfl⟩ :=
    step_eq_ok.1 hstep
  · have hlines : instructionLines (done ++ [raw]) = instructionLines done := by
      simp [instructionLines_concat, Line.isInstruction_of_parse hparse]
    exact ⟨hlines ▸ h.pc, hlines ▸ h.count, hlines ▸ h.words⟩
  · have hlines : instructionLines (done ++ [raw]) = instructionLines done ++ [raw] := by
      simp [instructionLines_concat, Line.isInstruction_of_parse hparse]
    rw [h.pc] at hvalue
    refine ⟨?_, ?_, ?_⟩
    · simp [hlines, h.pc, wordAddress_succ]
    · simp [hlines, h.count]
    · rw [hlines, List.reverse_cons]
      exact pointwise_concat (by rw [List.length_reverse, h.count]) h.words
        ⟨label, d, operands, hparse, h.pc, hvalue⟩

end Emission

namespace Program

theorem emit_after {symbols : SymbolTable} {lines : List Text} {e : Emission}
    (h : emit symbols lines = .ok e) : Emission.After symbols e lines :=
  foldlM_preserves (fun done e => Emission.After symbols e done)
    (fun _ _ _ _ he hread => he.step (mapError_eq_ok.1 hread)) Emission.after_start h

/-- The emission gets through lines whose instructions all encode. -/
theorem emit_succeeds {symbols : SymbolTable} {lines : List Text}
    (hstatements : ∀ raw ∈ lines, ∃ statement, Statement.ofLine raw = .ok statement)
    (hwords : ∀ k raw, (instructionLines lines)[k]? = some raw → ∃ w, Emits symbols k raw w) :
    ∃ e, emit symbols lines = .ok e ∧ Emission.After symbols e lines := by
  refine foldlM_progresses (fun done (e : Emission) => Emission.After symbols e done) ?_
    Emission.after_start
  rintro done raw e ⟨rest, hlines⟩ he
  have hstep : ∃ e', e.step symbols raw = .ok e' := by
    cases hraw : Line.isInstruction raw with
    | true =>
      have hline : lines[done.length]? = some raw := by simp [← hlines]
      have hindex : instructionsBefore lines done.length = (instructionLines done).length := by
        rw [← hlines, List.append_assoc, instructionsBefore_append_length]
      obtain ⟨w, label, d, operands, hparse, -, hvalue⟩ :=
        hwords _ raw (getElem?_instructionLines hline hraw)
      rw [hindex, ← he.pc] at hvalue
      exact ⟨_, Emission.step_eq_ok.2 (.inr ⟨label, d, operands, _, hparse, hvalue, rfl⟩)⟩
    | false =>
      obtain ⟨statement, hstatement⟩ := hstatements raw (by simp [← hlines])
      exact ⟨_, Emission.step_eq_ok.2
        (.inl ⟨_, Line.parse_of_not_isInstruction hstatement hraw, rfl⟩)⟩
  obtain ⟨e', hstep⟩ := hstep
  exact ⟨e', mapError_eq_ok.2 hstep, he.step hstep⟩

end Program

end Rv32i
