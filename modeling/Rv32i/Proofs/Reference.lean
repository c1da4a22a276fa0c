import Rv32i.Proofs.Encoding
import Rv32i.Proofs.Source.Line

/-!
# Operands that refer to labels

Only the last operand of an instruction can name a label, and only in some formats. The rest of an
instruction is encoded alike at every address and under every symbol table.
-/

set_option autoImplicit false

namespace Rv32i

namespace Payload

section Congr

variable {pc pc' : Address} {symbols symbols' : SymbolTable} (init : List Text) {t t' : Text}

theorem resolveI_concat_congr (h : Immediate.resolve t symbols = Immediate.resolve t' symbols') :
    resolveI symbols (init ++ [t]) = resolveI symbols' (init ++ [t']) := by
  rcases init with _ | ⟨a, _ | ⟨b, _ | ⟨c, rest⟩⟩⟩
  · rfl
  · rfl
  · simp only [List.cons_append, List.nil_append, resolveI, h]
  · cases rest <;> simp [resolveI]

theorem resolveB_concat_congr
    (h : Target.resolve t pc symbols = Target.resolve t' pc' symbols') :
    resolveB pc symbols (init ++ [t]) = resolveB pc' symbols' (init ++ [t']) := by
  rcases init with _ | ⟨a, _ | ⟨b, _ | ⟨c, rest⟩⟩⟩
  · rfl
  · rfl
  · simp only [List.cons_append, List.nil_append, resolveB, h]
  · cases rest <;> simp [resolveB]

theorem resolveU_concat_congr (h : Immediate.resolve t symbols = Immediate.resolve t' symbols') :
    resolveU symbols (init ++ [t]) = resolveU symbols' (init ++ [t']) := by
  rcases init with _ | ⟨a, _ | ⟨b, rest⟩⟩
  · rfl
  · simp only [List.cons_append, List.nil_append, resolveU, h]
  · cases rest <;> simp [resolveU]

theorem resolveJ_concat_congr
    (h : Target.resolve t pc symbols = Target.resolve t' pc' symbols') :
    resolveJ pc symbols (init ++ [t]) = resolveJ pc' symbols' (init ++ [t']) := by
  rcases init with _ | ⟨a, _ | ⟨b, rest⟩⟩
  · rfl
  · simp only [List.cons_append, List.nil_append, resolveJ, h]
  · cases rest <;> simp [resolveJ]

end Congr

end Payload

namespace Descriptor

variable {d : Descriptor} {operands : List Text} {pc pc' : Address} {symbols symbols' : SymbolTable}

def takesReference (d : Descriptor) : Bool :=
  match d.format with
  | .i => !d.isLoad
  | .b | .u | .j => true
  | .r | .s | .unassigned => false

def reference? (d : Descriptor) (operands : List Text) : Option Text :=
  if d.takesReference then (d.fixed.getD operands).getLast? else none

theorem reference?_eq_some {t : Text} : d.reference? operands = some t ↔
    d.takesReference = true ∧ (d.fixed.getD operands).getLast? = some t := by
  unfold reference?
  split <;> simp_all

def denote (d : Descriptor) (token : Text) (pc : Address) (symbols : SymbolTable) :
    Except Fault Int :=
  match d.format with
  | .b | .j => Target.resolve token pc symbols
  | .r | .i | .s | .u | .unassigned => Immediate.resolve token symbols

/-- An instruction depends on its last operand through what that denotes. -/
theorem resolve_concat_congr (init : List Text) {t t' : Text}
    (hother : d.takesReference = false → t = t')
    (hreference : d.takesReference = true → d.denote t pc symbols = d.denote t' pc' symbols') :
    d.resolve (init ++ [t]) pc symbols = d.resolve (init ++ [t']) pc' symbols' := by
  unfold takesReference at hother hreference
  unfold denote at hreference
  unfold resolve
  cases hformat : d.format with
  | r | s | unassigned =>
    simp only [hformat] at hother
    rw [hother trivial]
  | i =>
    simp only [hformat] at hother hreference
    cases hload : d.isLoad with
    | true =>
      rw [hother (by rw [hload]; rfl)]
      rfl
    | false => exact Payload.resolveI_concat_congr init (hreference (by rw [hload]; rfl))
  | b =>
    simp only [hformat] at hreference
    exact Payload.resolveB_concat_congr init (hreference trivial)
  | u =>
    simp only [hformat] at hreference
    exact Payload.resolveU_concat_congr init (hreference trivial)
  | j =>
    simp only [hformat] at hreference
    exact Payload.resolveJ_concat_congr init (hreference trivial)

theorem resolve_nil_congr : d.resolve [] pc symbols = d.resolve [] pc' symbols' := by
  unfold resolve
  cases d.format <;> rfl

theorem resolve_congr (h : d.takesReference = true → ∀ t, operands.getLast? = some t →
      d.denote t pc symbols = d.denote t pc' symbols') :
    d.resolve operands pc symbols = d.resolve operands pc' symbols' := by
  rcases List.eq_nil_or_concat' operands with rfl | ⟨init, t, rfl⟩
  · exact resolve_nil_congr
  · apply resolve_concat_congr init (fun _ => rfl)
    exact fun htakes => h htakes t List.getLast?_concat

/-- Encoding depends on the address and the symbol table through one operand only. -/
theorem encode_eq_of_reference (h : ∀ t, d.reference? operands = some t →
      d.denote t pc symbols = d.denote t pc' symbols') :
    d.encode operands pc symbols = d.encode operands pc' symbols' := by
  have hresolve {effective : List Text} (heffective : d.fixed.getD operands = effective) :
      d.resolve effective pc symbols = d.resolve effective pc' symbols' := by
    apply resolve_congr
    intro htakes t ht
    exact h t (reference?_eq_some.2 ⟨htakes, by rw [heffective, ht]⟩)
  unfold encode effectiveOperands
  cases hfixed : d.fixed with
  | none => simp only [ok_bind, hresolve (by rw [hfixed, Option.getD_none])]
  | some fixed =>
    dsimp only
    split
    · simp only [ok_bind, hresolve (by rw [hfixed, Option.getD_some])]
    · rfl

section Denote

variable {t t' : Text}

theorem denote_congr (ht : t.trim = t) (h : symbols.get? t = symbols'.get? t) :
    d.denote t pc symbols = d.denote t pc symbols' := by
  unfold denote
  split <;> simp only [Target.resolve, Immediate.resolve, ht, h]

/-- A label stands for its address, whatever it is called. -/
theorem denote_label (ht : t.trim = t) (ht' : t'.trim = t') {address : Address}
    (h : symbols.get? t = some address) (h' : symbols'.get? t' = some address) :
    d.denote t pc symbols = d.denote t' pc symbols' := by
  unfold denote
  split <;> simp only [Target.resolve, Immediate.resolve, ht, ht', h, h']

end Denote

theorem trim_of_fixed (hd : d ∈ table) {fixed : List Text} (hfixed : d.fixed = some fixed) :
    ∀ t ∈ fixed, t.trim = t := by
  have hall : ∀ d ∈ table, ∀ fixed ∈ d.fixed, ∀ t ∈ fixed, t.trim = t := by decide
  exact hall d hd fixed hfixed

end Descriptor

/-- Operands are read without blanks at their ends. -/
theorem Instruction.trim_of_mem_operandsOf {fields : List Text} :
    ∀ t ∈ operandsOf fields, t.trim = t := by
  intro t ht
  simp only [operandsOf] at ht
  split at ht
  · cases ht
  · obtain ⟨piece, -, rfl⟩ := List.mem_map.1 ht
    exact piece.trim_trim

theorem Line.trim_of_reference {raw : Text} {label : Option Text} {d : Descriptor}
    {operands : List Text} (h : Line.parse raw = .ok ⟨label, some ⟨d, operands⟩⟩) {t : Text}
    (ht : d.reference? operands = some t) : t.trim = t := by
  have hmem := List.mem_of_getLast? (Descriptor.reference?_eq_some.1 ht).2
  cases hfixed : d.fixed with
  | none =>
    rw [hfixed, Option.getD_none] at hmem
    obtain ⟨statement, -, -, hinstruction⟩ := parse_eq_ok.1 h
    obtain ⟨mnemonic, rest, -, -, rfl⟩ := Instruction.parse_eq_some.1 hinstruction
    exact Instruction.trim_of_mem_operandsOf t hmem
  | some fixed =>
    rw [hfixed, Option.getD_some] at hmem
    exact Descriptor.trim_of_fixed (mem_table_of_parse h) hfixed t hmem

end Rv32i
