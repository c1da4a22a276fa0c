import Rv32i.Proofs.Program.Transfers
import Rv32i.Proofs.Rules
import Rv32i.Proofs.Simulation

/-!
# Blanks around operands

The readers of registers, memory operands and immediates take the blanks off the ends of their text
first, so these do not matter. The target of a branch or jump is looked up with them. It is then
neither a label nor a literal, even if it is one without the blanks.
-/

set_option autoImplicit false

namespace Rv32i

open Text (ofString)

def SameOutcome {α : Type} (x y : Except Fault α) : Prop :=
  Related (fun fault fault' => fault.kind = fault'.kind) Eq x y

namespace SameOutcome

variable {α β : Type} {x y : Except Fault α}

theorem of_eq (h : x = y) : SameOutcome x y := by
  refine Related.of_eq ?_ ?_ h
  · exact fun _ => rfl
  · exact fun _ => rfl

theorem bind {f : α → Except Fault β} (h : SameOutcome x y) : SameOutcome (x >>= f) (y >>= f) := by
  apply Related.bind h
  rintro a _ - - rfl
  exact of_eq rfl

/-- What follows a readable operand is only compared for what was read. -/
theorem bind_same {f g : α → Except Fault β} (h : ∀ a, x = .ok a → SameOutcome (f a) (g a)) :
    SameOutcome (x >>= f) (x >>= g) := by
  apply Related.bind (of_eq rfl)
  rintro a _ ha - rfl
  exact h a ha

end SameOutcome

section Readers

variable (token : Text) (symbols : SymbolTable)

theorem Register.parse_trim : parse token.trim = parse token := by
  simp only [parse, Text.trim_trim]

theorem MemoryOperand.parse_trim : parse token.trim = parse token := by
  simp only [parse, Text.trim_trim]

theorem Immediate.resolve_trim : resolve token.trim symbols = resolve token symbols := by
  simp only [resolve, Text.trim_trim]

end Readers

/-- A literal has no blanks, not even at its ends. -/
theorem Literal.Denotes.trim_eq {t : Text} {v : Int} (h : Literal.Denotes t v) : t.trim = t := by
  have hsigns : ∀ e ∈ Literal.signs, ∀ g ∈ e.1, g.isBlank = false := by decide
  have hmarks : ∀ e ∈ Literal.marks, ∀ g ∈ e.1, g.isBlank = false := by decide
  have hdigit : ∀ g ∈ ofString "0123456789abcdef" ++ ofString "0123456789ABCDEF",
      g.isBlank = false := by decide
  obtain ⟨sign, negative, mark, base, digits, n, hsign, hmark, rfl, hdigits, -, -⟩ := h
  apply Text.trim_of_solid
  intro g hg
  rcases List.mem_append.1 hg with hg | hg
  · rcases List.mem_append.1 hg with hg | hg
    · exact hsigns _ hsign g hg
    · exact hmarks _ hmark g hg
  · obtain ⟨d, -, hlower | hupper⟩ := hdigits.exists_digit hg
    · exact hdigit g (List.mem_append_left _ (List.mem_of_getElem? hlower))
    · exact hdigit g (List.mem_append_right _ (List.mem_of_getElem? hupper))

def SymbolTable.Trimmed (symbols : SymbolTable) : Prop :=
  ∀ name address, symbols.get? name = some address → name.trim = name

namespace Target

variable {token : Text} {symbols : SymbolTable}

/-- With blanks around it a target is neither a label nor a literal. -/
theorem not_kept_of_padded (hsymbols : symbols.Trimmed) (h : token.trim ≠ token) :
    ¬ (Rule.target token symbols).Kept := by
  rintro (⟨address, haddress⟩ | ⟨v, hv⟩)
  · exact h (hsymbols token address haddress)
  · exact h hv.trim_eq

theorem exists_undefined (pc : Address) (h : ¬ (Rule.target token symbols).Kept) :
    ∃ fault, resolve token pc symbols = .error fault ∧ fault.kind = .undefinedSymbol := by
  rw [(Rule.Follows.target token pc symbols).error_iff]
  exact .inl ⟨h, rfl⟩

theorem resolve_trim_sameOutcome (pc : Address) (hsymbols : symbols.Trimmed)
    (h : token.trim ≠ token → ¬ (Rule.target token.trim symbols).Kept) :
    SameOutcome (resolve token pc symbols) (resolve token.trim pc symbols) := by
  by_cases hpadded : token.trim = token
  · exact .of_eq (by rw [hpadded])
  · obtain ⟨fault, hfault, hkind⟩ := exists_undefined pc (not_kept_of_padded hsymbols hpadded)
    obtain ⟨fault', hfault', hkind'⟩ := exists_undefined pc (h hpadded)
    rw [hfault, hfault']
    exact .error (hkind.trans hkind'.symm)

end Target

namespace Payload

variable {operands : List Text} {pc : Address} {symbols : SymbolTable}

theorem resolveB_trim (h : ∀ rs1 rs2 target, operands = [rs1, rs2, target] →
      (∃ r, Register.parse rs1 = .ok r) → (∃ r, Register.parse rs2 = .ok r) →
      SameOutcome (Target.resolve target pc symbols) (Target.resolve target.trim pc symbols)) :
    SameOutcome (resolveB pc symbols operands) (resolveB pc symbols (operands.map Text.trim)) := by
  rcases operands with _ | ⟨rs1, _ | ⟨rs2, _ | ⟨target, _ | ⟨extra, rest⟩⟩⟩⟩
  · exact .of_eq rfl
  · exact .of_eq rfl
  · exact .of_eq rfl
  · simp only [List.map_cons, List.map_nil, resolveB, Register.parse_trim]
    apply SameOutcome.bind_same
    intro a ha
    apply SameOutcome.bind_same
    intro b hb
    exact (h rs1 rs2 target rfl ⟨a, ha⟩ ⟨b, hb⟩).bind
  · exact .of_eq (by simp [resolveB])

theorem resolveJ_trim (h : ∀ rd target, operands = [rd, target] →
      (∃ r, Register.parse rd = .ok r) →
      SameOutcome (Target.resolve target pc symbols) (Target.resolve target.trim pc symbols)) :
    SameOutcome (resolveJ pc symbols operands) (resolveJ pc symbols (operands.map Text.trim)) := by
  rcases operands with _ | ⟨rd, _ | ⟨target, _ | ⟨extra, rest⟩⟩⟩
  · exact .of_eq rfl
  · exact .of_eq rfl
  · simp only [List.map_cons, List.map_nil, resolveJ, Register.parse_trim]
    apply SameOutcome.bind_same
    intro a ha
    exact (h rd target rfl ⟨a, ha⟩).bind
  · exact .of_eq (by simp [resolveJ])

end Payload

namespace Descriptor

variable {d : Descriptor} {operands : List Text} {pc : Address} {symbols : SymbolTable}

/-- An instruction without a target is resolved alike, down to what is reported of it. -/
theorem resolve_map_trim (hd : ∀ t : Transfer, d.format ≠ t.format) :
    d.resolve (operands.map Text.trim) pc symbols = d.resolve operands pc symbols := by
  unfold resolve
  cases hformat : d.format with
  | r =>
    rcases operands with _ | ⟨a, _ | ⟨b, _ | ⟨c, _ | ⟨extra, rest⟩⟩⟩⟩ <;>
      simp [Payload.resolveR, Register.parse_trim]
  | i =>
    cases d.isLoad with
    | true =>
      rcases operands with _ | ⟨a, _ | ⟨b, _ | ⟨extra, rest⟩⟩⟩ <;>
        simp [Payload.resolveLoad, Register.parse_trim, MemoryOperand.parse_trim]
    | false =>
      rcases operands with _ | ⟨a, _ | ⟨b, _ | ⟨c, _ | ⟨extra, rest⟩⟩⟩⟩ <;>
        simp [Payload.resolveI, Register.parse_trim, Immediate.resolve_trim]
  | s =>
    rcases operands with _ | ⟨a, _ | ⟨b, _ | ⟨extra, rest⟩⟩⟩ <;>
      simp [Payload.resolveS, Register.parse_trim, MemoryOperand.parse_trim]
  | b => exact absurd hformat (hd .branch)
  | u =>
    rcases operands with _ | ⟨a, _ | ⟨b, _ | ⟨extra, rest⟩⟩⟩ <;>
      simp [Payload.resolveU, Register.parse_trim, Immediate.resolve_trim]
  | j => exact absurd hformat (hd .jump)
  | unassigned => rfl

/-- The registers of a branch or jump are in order, and only the blanks around its target keep that
from being a label or a literal. -/
def PadsTarget (d : Descriptor) (operands : List Text) (symbols : SymbolTable) : Prop :=
  ∃ (t : Transfer) (registers : List Text) (target : Text), d.format = t.format ∧
    operands = registers ++ [target] ∧ registers.length = t.registers ∧
    (∀ token ∈ registers, ∃ r, Register.parse token = .ok r) ∧
    target.trim ≠ target ∧ (Rule.target target.trim symbols).Kept

theorem resolve_trim_sameOutcome (hsymbols : symbols.Trimmed)
    (h : ¬ d.PadsTarget operands symbols) :
    SameOutcome (d.resolve operands pc symbols)
      (d.resolve (operands.map Text.trim) pc symbols) := by
  by_cases htransfer : ∃ t : Transfer, d.format = t.format
  · obtain ⟨t, ht⟩ := htransfer
    unfold resolve
    cases t with
    | branch =>
      simp only [ht, Transfer.format]
      apply Payload.resolveB_trim
      intro rs1 rs2 target hoperands hrs1 hrs2
      apply Target.resolve_trim_sameOutcome pc hsymbols
      intro hpadded hkept
      refine h ⟨.branch, [rs1, rs2], target, ht, hoperands, rfl, ?_, hpadded, hkept⟩
      simp [hrs1, hrs2]
    | jump =>
      simp only [ht, Transfer.format]
      apply Payload.resolveJ_trim
      intro rd target hoperands hrd
      apply Target.resolve_trim_sameOutcome pc hsymbols
      intro hpadded hkept
      refine h ⟨.jump, [rd], target, ht, hoperands, rfl, ?_, hpadded, hkept⟩
      simp [hrd]
  · exact .of_eq (resolve_map_trim fun t ht => htransfer ⟨t, ht⟩).symm

theorem encode_trim_sameOutcome (hsymbols : symbols.Trimmed) (h : ¬ d.PadsTarget operands symbols) :
    SameOutcome (d.encode operands pc symbols) (d.encode (operands.map Text.trim) pc symbols) := by
  unfold encode effectiveOperands
  cases d.fixed with
  | none => exact (resolve_trim_sameOutcome hsymbols h).bind
  | some fixed => exact .of_eq (by simp only [List.isEmpty_map, List.length_map])

/-- Where nothing is wrong before the target, it alone decides about an undefined symbol. -/
theorem encode_undefined_iff (hd : d ∈ table) {t : Transfer} (hformat : d.format = t.format)
    {registers : List Text} (hcount : registers.length = t.registers)
    (hregisters : ∀ token ∈ registers, ∃ r, Register.parse token = .ok r) {target : Text} :
    (∃ fault, d.encode (registers ++ [target]) pc symbols = .error fault ∧
      fault.kind = .undefinedSymbol) ↔ ¬ (Rule.target target symbols).Kept := by
  have hassigned : d.format ≠ .unassigned := by
    rw [hformat]
    cases t <;> decide
  rw [encode_of_written (fixed_of_transfer hd hformat),
    (resolve_follows hassigned _ pc symbols).map.error_iff]
  cases t with
  | branch =>
    obtain ⟨rs1, rs2, rfl⟩ := List.length_eq_two.1 hcount
    have hrs1 := hregisters rs1 (by simp)
    have hrs2 := hregisters rs2 (by simp)
    simp [rules, lastRules, operandCount, registerCount, hformat, Transfer.format, Rule.FirstBroken,
      Rule.count, Rule.register, Rule.requires, Rule.target, Rule.aligned, Rule.reach, hrs1, hrs2]
  | jump =>
    obtain ⟨rd, rfl⟩ := List.length_eq_one_iff.1 hcount
    have hrd := hregisters rd (by simp)
    simp [rules, lastRules, operandCount, registerCount, hformat, Transfer.format, Rule.FirstBroken,
      Rule.count, Rule.register, Rule.requires, Rule.target, Rule.aligned, Rule.reach, hrd]

theorem PadsTarget.encode_undefined (hd : d ∈ table) (hsymbols : symbols.Trimmed)
    (h : d.PadsTarget operands symbols) (pc : Address) :
    ∃ fault, d.encode operands pc symbols = .error fault ∧ fault.kind = .undefinedSymbol := by
  obtain ⟨t, registers, target, hformat, rfl, hcount, hregisters, hpadded, -⟩ := h
  apply (encode_undefined_iff hd hformat hcount hregisters).2
  exact Target.not_kept_of_padded hsymbols hpadded

theorem PadsTarget.encode_trimmed (hd : d ∈ table) (h : d.PadsTarget operands symbols) :
    ¬ ∃ fault, d.encode (operands.map Text.trim) pc symbols = .error fault ∧
      fault.kind = .undefinedSymbol := by
  obtain ⟨t, registers, target, hformat, rfl, hcount, hregisters, -, hkept⟩ := h
  have hcount' : (registers.map Text.trim).length = t.registers := by rw [List.length_map, hcount]
  have hregisters' : ∀ token ∈ registers.map Text.trim, ∃ r, Register.parse token = .ok r := by
    intro token htoken
    obtain ⟨token, hmem, rfl⟩ := List.mem_map.1 htoken
    rw [Register.parse_trim]
    exact hregisters token hmem
  rw [List.map_append, List.map_singleton, encode_undefined_iff hd hformat hcount' hregisters']
  exact fun hbroken => hbroken hkept

/-- Without the blanks around its operands an instruction has the same word, or a fault of the same
kind, exactly if it is no branch or jump in which the blanks hide the target. Where they do, the
target is reported as an undefined symbol. -/
theorem encode_ignores_padding_iff (hd : d ∈ table) (operands : List Text) (pc : Address)
    {symbols : SymbolTable} (hsymbols : symbols.Trimmed) :
    (SameOutcome (d.encode operands pc symbols) (d.encode (operands.map Text.trim) pc symbols) ↔
      ¬ d.PadsTarget operands symbols) ∧
    (d.PadsTarget operands symbols →
      ∃ fault, d.encode operands pc symbols = .error fault ∧ fault.kind = .undefinedSymbol) := by
  refine ⟨⟨fun hsame hpads => ?_, encode_trim_sameOutcome hsymbols⟩, fun hpads => ?_⟩
  · obtain ⟨fault, hfault, hkind⟩ := hpads.encode_undefined hd hsymbols pc
    obtain ⟨fault', hfault', hsame'⟩ := hsame.exists_error hfault
    exact hpads.encode_trimmed hd ⟨fault', hfault', hsame' ▸ hkind⟩
  · exact hpads.encode_undefined hd hsymbols pc

/-- A label that is defined, with a tab after it. -/
theorem encode_ignores_padding_iff_label :
    let d := branch "beq" 0b000
    let operands := [" x1", "sp\t", "loop\t"].map ofString
    let symbols := SymbolTable.empty.insert (ofString "loop") 8
    d ∈ table ∧ symbols.Trimmed ∧ d.PadsTarget operands symbols ∧
      d.encode (operands.map Text.trim) 0 symbols = .ok 0x00208463 ∧
      ¬ SameOutcome (d.encode operands 0 symbols)
        (d.encode (operands.map Text.trim) 0 symbols) := by
  intro d operands symbols
  have hd : d ∈ table := by decide
  have hsymbols : symbols.Trimmed := by
    intro name address h
    rw [SymbolTable.get?_insert] at h
    split at h
    · next hname =>
      rw [hname]
      decide
    · cases h
  have hpads : d.PadsTarget operands symbols := by
    refine ⟨.branch, [" x1", "sp\t"].map ofString, ofString "loop\t", rfl, rfl, rfl, ?_, by decide,
      .inl ⟨8, rfl⟩⟩
    simp only [List.map_cons, List.map_nil, List.forall_mem_cons]
    exact ⟨⟨1, by decide⟩, ⟨2, by decide⟩, List.forall_mem_nil _⟩
  refine ⟨hd, hsymbols, hpads, by decide, fun hsame => ?_⟩
  exact ((encode_ignores_padding_iff hd operands 0 hsymbols).1.1 hsame) hpads

end Descriptor

end Rv32i
