import Mathlib.Tactic.Tauto
import Rv32i.Proofs.Operand

/-!
# Literals and immediates

The texts that are literals, described by what they consist of, and what each of them denotes. The
reader of literals accepts these and no others, and an immediate is a label, a literal or a fault.
-/

set_option autoImplicit false

namespace Rv32i

open Text (ofString)

namespace Literal

def signs : List (Text × Bool) := [([], false), (ofString "+", false), (ofString "-", true)]

def marks : List (Text × Nat) :=
  [([], 10), (ofString "0x", 16), (ofString "0X", 16), (ofString "0b", 2), (ofString "0B", 2)]

/-- An optional sign, an optional mark and digits, with a magnitude that a signed 64-bit integer can
hold. A leading zero by itself is no mark. -/
def Denotes (t : Text) (v : Int) : Prop :=
  ∃ sign negative mark base digits n, (sign, negative) ∈ signs ∧ (mark, base) ∈ marks ∧
    t = sign ++ mark ++ digits ∧ Numeral.Denotes base digits n ∧ n ≤ 2 ^ 63 - 1 ∧
    v = if negative then -(n : Int) else n

variable {t rest sign mark digits : Text} {negative : Bool} {base n : Nat} {v : Int}

theorem base_le_sixteen (h : (mark, base) ∈ marks) : base ≤ 16 := by
  have hall : ∀ m ∈ marks, m.2 ≤ 16 := by decide
  exact hall _ h

theorem exists_sign (h : splitSign t = (negative, rest)) :
    ∃ sign, (sign, negative) ∈ signs ∧ t = sign ++ rest := by
  unfold splitSign at h
  split at h
  · cases h
    exact ⟨ofString "-", by decide, rfl⟩
  · cases h
    exact ⟨ofString "+", by decide, rfl⟩
  · cases h
    exact ⟨[], by decide, rfl⟩

theorem exists_mark (h : splitBase t = (base, digits)) :
    ∃ mark, (mark, base) ∈ marks ∧ t = mark ++ digits := by
  unfold splitBase at h
  split at h
  · split at h
    · next hmark =>
      cases h
      rcases hmark with rfl | rfl
      · exact ⟨ofString "0x", by decide, rfl⟩
      · exact ⟨ofString "0X", by decide, rfl⟩
    split at h
    · next hmark =>
      cases h
      rcases hmark with rfl | rfl
      · exact ⟨ofString "0b", by decide, rfl⟩
      · exact ⟨ofString "0B", by decide, rfl⟩
    · cases h
      exact ⟨[], by decide, rfl⟩
  · cases h
    exact ⟨[], by decide, rfl⟩

/-- Before digits of its base a mark is taken for what it is. -/
theorem splitBase_append (h : (mark, base) ∈ marks) (hdigits : Numeral.Denotes base digits n) :
    splitBase (mark ++ digits) = (base, digits) := by
  obtain ⟨g, digits', rfl⟩ := List.exists_cons_of_ne_nil hdigits.1
  simp only [marks, List.mem_cons, List.not_mem_nil, or_false, Prod.mk.injEq] at h
  rcases h with ⟨rfl, rfl⟩ | ⟨rfl, rfl⟩ | ⟨rfl, rfl⟩ | ⟨rfl, rfl⟩ | ⟨rfl, rfl⟩
  · exact splitBase_of_isDigit hdigits.isDigit
  · rfl
  · rfl
  · rfl
  · rfl

theorem exists_leading_digit (h : (mark, base) ∈ marks) (hdigits : Numeral.Denotes base digits n) :
    ∃ g rest, mark ++ digits = g :: rest ∧ Numeral.IsDigit 10 g := by
  have hzero : Numeral.IsDigit 10 (.scalar '0') := ⟨0, by decide, rfl⟩
  simp only [marks, List.mem_cons, List.not_mem_nil, or_false, Prod.mk.injEq] at h
  rcases h with ⟨rfl, rfl⟩ | ⟨rfl, rfl⟩ | ⟨rfl, rfl⟩ | ⟨rfl, rfl⟩ | ⟨rfl, rfl⟩
  · obtain ⟨g, rest, rfl⟩ := List.exists_cons_of_ne_nil hdigits.1
    exact ⟨g, rest, rfl, hdigits.isDigit g List.mem_cons_self⟩
  · exact ⟨_, _, rfl, hzero⟩
  · exact ⟨_, _, rfl, hzero⟩
  · exact ⟨_, _, rfl, hzero⟩
  · exact ⟨_, _, rfl, hzero⟩

/-- What follows a sign starts with a digit, so there is no second sign to take off. -/
theorem splitSign_append (hsign : (sign, negative) ∈ signs) (hmark : (mark, base) ∈ marks)
    (hdigits : Numeral.Denotes base digits n) :
    splitSign (sign ++ (mark ++ digits)) = (negative, mark ++ digits) := by
  obtain ⟨g, rest, hrest, hg⟩ := exists_leading_digit hmark hdigits
  rw [hrest]
  simp only [signs, List.mem_cons, List.not_mem_nil, or_false, Prod.mk.injEq] at hsign
  rcases hsign with ⟨rfl, rfl⟩ | ⟨rfl, rfl⟩ | ⟨rfl, rfl⟩
  · exact splitSign_of_isDigit hg rest
  · rfl
  · rfl

theorem parse?_eq_some_iff : parse? t = some v ↔ Denotes t v := by
  constructor
  · intro h
    rcases hsign : splitSign t with ⟨negative, magnitude⟩
    rcases hmark : splitBase magnitude with ⟨base, digits⟩
    obtain ⟨sign, hmem, rfl⟩ := exists_sign hsign
    obtain ⟨mark, hbase, rfl⟩ := exists_mark hmark
    simp only [parse?, hsign, hmark] at h
    split at h
    · next n hvalue =>
      split at h
      · next hn =>
        have hdigits := (Numeral.value?_eq_some_iff (base_le_sixteen hbase)).1 hvalue
        exact ⟨sign, negative, mark, base, digits, n, hmem, hbase,
          (List.append_assoc _ _ _).symm, hdigits, Nat.le_pred_of_lt hn, (Option.some.inj h).symm⟩
      · cases h
    · cases h
  · rintro ⟨sign, negative, mark, base, digits, n, hsign, hmark, rfl, hdigits, hn, rfl⟩
    have hvalue := (Numeral.value?_eq_some_iff (base_le_sixteen hmark)).2 hdigits
    have hbound : n < int64Bound := Nat.lt_of_le_pred (by decide) hn
    rw [List.append_assoc, parse?, splitSign_append hsign hmark hdigits]
    simp only [splitBase_append hmark hdigits, hvalue, if_pos hbound]
    rfl

end Literal

namespace Immediate

def StartsName (t : Text) : Prop := ∃ c rest, t = .scalar c :: rest ∧ (c.isAlpha = true ∨ c = '_')

theorem opensName_iff {t : Text} : opensName t = true ↔ StartsName t := by
  have hletter (c : Char) : (c == '_' || ('a' ≤ c && c ≤ 'z') || ('A' ≤ c && c ≤ 'Z')) = true ↔
      c.isAlpha = true ∨ c = '_' := by
    have hupper : c.isUpper = decide (c.val ≥ 'A'.val ∧ c.val ≤ 'Z'.val) := rfl
    have hlower : c.isLower = (decide (c.val ≥ 'a'.val) && decide (c.val ≤ 'z'.val)) := rfl
    have halpha : c.isAlpha = (c.isUpper || c.isLower) := rfl
    simp only [halpha, hupper, hlower, Bool.or_eq_true, Bool.and_eq_true, beq_iff_eq,
      decide_eq_true_eq, Char.le_def, ge_iff_le]
    tauto
  unfold opensName
  split
  · next c rest => simpa [StartsName] using hletter c
  · next hne =>
    constructor
    · intro h
      cases h
    · rintro ⟨c, rest, rfl, -⟩
      exact absurd rfl (hne c rest)

variable {token : Text} {symbols : SymbolTable}

theorem resolve_of_label {address : Address} (h : symbols.get? token.trim = some address) :
    resolve token symbols = .ok address.toNat := by
  simp only [resolve, h]

theorem resolve_eq_ok_iff (h : symbols.get? token.trim = none) {v : Int} :
    resolve token symbols = .ok v ↔ Literal.Denotes token.trim v := by
  rw [← Literal.parse?_eq_some_iff]
  cases hliteral : Literal.parse? token.trim with
  | some v' => simp [resolve, h, hliteral]
  | none => simp [resolve, h, hliteral]

theorem resolve_of_neither (h : symbols.get? token.trim = none)
    (hv : ∀ v, ¬ Literal.Denotes token.trim v) :
    resolve token symbols = .error (if opensName token.trim then .undefinedSymbol token.trim
      else .malformedImmediate token.trim) := by
  have hnone : Literal.parse? token.trim = none :=
    Option.eq_none_iff_forall_ne_some.2 fun v hsome => hv v (Literal.parse?_eq_some_iff.1 hsome)
  simp only [resolve, h, hnone]

/-- A label denotes its address. A trimmed text that is no label is resolved exactly if it is a
literal, and then to what it denotes; every other text is an undefined symbol if it starts like a
name, and malformed if it does not. -/
theorem resolve_reads_literals (token : Text) (symbols : SymbolTable) :
    (∀ address, symbols.get? token.trim = some address →
      resolve token symbols = .ok address.toNat) ∧
    (symbols.get? token.trim = none →
      (∀ v, resolve token symbols = .ok v ↔ Literal.Denotes token.trim v) ∧
      ((∀ v, ¬ Literal.Denotes token.trim v) → ∃ fault, resolve token symbols = .error fault ∧
        (StartsName token.trim → fault.kind = .undefinedSymbol) ∧
        (¬ StartsName token.trim → fault.kind = .operandFormat))) := by
  refine ⟨fun address => resolve_of_label, fun hlabel => ⟨fun v => resolve_eq_ok_iff hlabel, ?_⟩⟩
  intro hv
  refine ⟨_, resolve_of_neither hlabel hv, fun hname => ?_, fun hname => ?_⟩
  · rw [if_pos (opensName_iff.2 hname)]
    rfl
  · rw [if_neg (mt opensName_iff.1 hname)]
    rfl

end Immediate

end Rv32i
