import Mathlib.Algebra.Group.Nat.Defs
import Mathlib.Data.List.Forall2
import Mathlib.Data.List.Induction
import Mathlib.Data.Nat.Digits.Defs
import Rv32i.Text.Numeral

/-!
# Numerals are read back

A number written in a base up to sixteen, in as few digits as it needs or in a fixed number of
places that suffice for it, is the value of its digits. A text has a value exactly if it consists of
digits, and the value is the number that these make up in their places.
-/

set_option autoImplicit false

namespace Rv32i

namespace Numeral

open Text (ofString)

def IsDigit (base : Nat) (g : Glyph) : Prop := ∃ d < base, g = .scalar (Nat.digitChar d)

theorem digitOf?_digitChar : ∀ d < 16, digitOf? (Nat.digitChar d) = some d := by decide

theorem digit?_digitChar {base d : Nat} (hbase : base ≤ 16) (hd : d < base) :
    digit? base (.scalar (Nat.digitChar d)) = some d := by
  simp [digit?, digitOf?_digitChar d (by omega), hd]

theorem digits_eq {base : Nat} (hbase : 1 < base) (n : Nat) :
    digits base n = (if n < base then [] else digits base (n / base)) ++
      [.scalar (Nat.digitChar (n % base))] := by
  rw [digits, Nat.toDigits_eq_if hbase]
  split
  · next h => rw [Nat.mod_eq_of_lt h]; rfl
  · simp [digits]

theorem digits_ne_nil (base n : Nat) : digits base n ≠ [] := by
  simp [digits, Nat.toDigits_ne_nil]

theorem isDigit_of_mem_digits {base : Nat} (hbase : 1 < base) {n : Nat} {g : Glyph}
    (h : g ∈ digits base n) : IsDigit base g := by
  induction n using Nat.strongRecOn with
  | ind n ih =>
    rw [digits_eq hbase, List.mem_append] at h
    rcases h with h | h
    · split at h
      · simp at h
      · exact ih (n / base) (Nat.div_lt_self (by omega) hbase) h
    · exact ⟨n % base, Nat.mod_lt _ (by omega), List.mem_singleton.1 h⟩

def valueFrom (base : Nat) (n : Nat) (t : Text) : Option Nat :=
  t.foldlM (fun n g => (digit? base g).map (base * n + ·)) n

theorem value?_eq_valueFrom {base : Nat} {t : Text} (h : t ≠ []) :
    value? base t = valueFrom base 0 t := by
  rw [value?, if_neg (by simpa using h), valueFrom]

theorem valueFrom_append (base n : Nat) (s t : Text) :
    valueFrom base n (s ++ t) = (valueFrom base n s).bind fun m => valueFrom base m t :=
  List.foldlM_append

theorem valueFrom_digit {base d : Nat} (hbase : base ≤ 16) (hd : d < base) (n : Nat) :
    valueFrom base n [.scalar (Nat.digitChar d)] = some (base * n + d) := by
  simp [valueFrom, digit?_digitChar hbase hd]

theorem value?_digits {base : Nat} (hlow : 1 < base) (hhigh : base ≤ 16) (n : Nat) :
    value? base (digits base n) = some n := by
  rw [value?_eq_valueFrom (digits_ne_nil base n)]
  induction n using Nat.strongRecOn with
  | ind n ih =>
    have hdigit : n % base < base := Nat.mod_lt _ (by omega)
    rw [digits_eq hlow, valueFrom_append]
    split
    · next h =>
      rw [Nat.mod_eq_of_lt h]
      have hvalue := valueFrom_digit hhigh h 0
      rwa [Nat.mul_zero, Nat.zero_add] at hvalue
    · rw [ih (n / base) (Nat.div_lt_self (by omega) hlow), Option.bind_some,
        valueFrom_digit hhigh hdigit, Nat.div_add_mod]

theorem isDigit_of_mem_places {base : Nat} (hbase : 0 < base) {width n : Nat} {g : Glyph}
    (h : g ∈ places base width n) : IsDigit base g := by
  induction width generalizing n with
  | zero => simp [places] at h
  | succ width ih =>
    rw [places, List.mem_append] at h
    rcases h with h | h
    · exact ih h
    · exact ⟨n % base, Nat.mod_lt _ hbase, List.mem_singleton.1 h⟩

theorem valueFrom_places {base : Nat} (hbase : base ≤ 16) {width n : Nat}
    (h : n < base ^ width) : valueFrom base 0 (places base width n) = some n := by
  induction width generalizing n with
  | zero =>
    have hn : n = 0 := by simpa using h
    simp [places, valueFrom, hn]
  | succ width ih =>
    have hpos : 0 < base := by
      rcases Nat.eq_zero_or_pos base with rfl | hpos
      · simp at h
      · exact hpos
    have hhigh : n / base < base ^ width := Nat.div_lt_of_lt_mul (by rwa [Nat.pow_succ'] at h)
    rw [places, valueFrom_append, ih hhigh, Option.bind_some,
      valueFrom_digit hbase (Nat.mod_lt _ hpos), Nat.div_add_mod]

/-- Leading zeros do not change the value. -/
theorem value?_places {base : Nat} (hbase : base ≤ 16) {width n : Nat} (hwidth : 0 < width)
    (h : n < base ^ width) : value? base (places base width n) = some n := by
  have hne : places base width n ≠ [] := by
    intro hnil
    have hlength := length_places base width n
    rw [hnil] at hlength
    simp at hlength
    omega
  rw [value?_eq_valueFrom hne, valueFrom_places hbase h]

section Meaning

variable {base d n : Nat} {g : Glyph} {t : Text}

def ReadAs (base d : Nat) (g : Glyph) : Prop :=
  d < base ∧
    ((ofString "0123456789abcdef")[d]? = some g ∨ (ofString "0123456789ABCDEF")[d]? = some g)

/-- One or more digits and the number that they make up. The most significant one is written first,
where `Nat.ofDigits` starts with the least significant one. -/
def Denotes (base : Nat) (t : Text) (n : Nat) : Prop :=
  t ≠ [] ∧ ∃ ds, List.Forall₂ (ReadAs base) ds t.reverse ∧ n = Nat.ofDigits base ds

theorem toNat_lt_of_digitOf? {c : Char} (h : digitOf? c = some d) : c.toNat < 128 := by
  have hle {x : Char} (hx : c ≤ x) : c.toNat ≤ x.toNat :=
    UInt32.le_iff_toNat_le.1 (Char.le_def.1 hx)
  unfold digitOf? at h
  split at h
  · next hc => exact Nat.lt_of_le_of_lt (hle hc.2) (by decide)
  split at h
  · next hc => exact Nat.lt_of_le_of_lt (hle hc.2) (by decide)
  split at h
  · next hc => exact Nat.lt_of_le_of_lt (hle hc.2) (by decide)
  cases h

theorem digit?_eq_some_iff (hbase : base ≤ 16) : digit? base g = some d ↔ ReadAs base d g := by
  constructor
  · intro h
    have hall : ∀ n < 128, ∀ d ∈ digitOf? (Char.ofNat n),
        (ofString "0123456789abcdef")[d]? = some (.scalar (Char.ofNat n)) ∨
          (ofString "0123456789ABCDEF")[d]? = some (.scalar (Char.ofNat n)) := by decide
    cases g with
    | stray b => cases h
    | scalar c =>
      obtain ⟨hd, hlt⟩ := Option.filter_eq_some_iff.1 h
      have hc := hall c.toNat (toNat_lt_of_digitOf? hd)
      rw [Char.ofNat_toNat] at hc
      exact ⟨of_decide_eq_true hlt, hc d hd⟩
  · rintro ⟨hd, hg⟩
    have hall : ∀ d < 16, ((ofString "0123456789abcdef")[d]?.bind (digit? 16) = some d) ∧
        (ofString "0123456789ABCDEF")[d]?.bind (digit? 16) = some d := by decide
    have hsixteen : digit? 16 g = some d := by
      obtain ⟨hlower, hupper⟩ := hall d (Nat.lt_of_lt_of_le hd hbase)
      rcases hg with hg | hg
      · rwa [hg] at hlower
      · rwa [hg] at hupper
    cases g with
    | stray b => cases hsixteen
    | scalar c =>
      obtain ⟨hdigit, -⟩ := Option.filter_eq_some_iff.1 hsixteen
      exact Option.filter_eq_some_iff.2 ⟨hdigit, decide_eq_true hd⟩

/-- The last digit is the least significant one, so the induction takes it off first. -/
theorem valueFrom_eq_some_iff (hbase : base ≤ 16) : valueFrom base 0 t = some n ↔
    ∃ ds, List.Forall₂ (ReadAs base) ds t.reverse ∧ n = Nat.ofDigits base ds := by
  induction t using List.reverseRecOn generalizing n with
  | nil => simp [valueFrom, eq_comm]
  | append_singleton t g ih =>
    have hlast (m : Nat) : valueFrom base m [g] = (digit? base g).map (base * m + ·) := by
      simp [valueFrom]
    rw [valueFrom_append, Option.bind_eq_some_iff, List.reverse_concat]
    constructor
    · rintro ⟨m, hm, hn⟩
      rw [hlast, Option.map_eq_some_iff] at hn
      obtain ⟨d, hd, rfl⟩ := hn
      obtain ⟨ds, hds, rfl⟩ := ih.1 hm
      refine ⟨d :: ds, .cons ((digit?_eq_some_iff hbase).1 hd) hds, ?_⟩
      rw [Nat.ofDigits_cons, Nat.add_comm]
    · rintro ⟨_, hall, rfl⟩
      obtain ⟨d, ds, hd, hds, rfl⟩ := List.forall₂_cons_right_iff.1 hall
      refine ⟨Nat.ofDigits base ds, ih.2 ⟨ds, hds, rfl⟩, ?_⟩
      rw [hlast, (digit?_eq_some_iff hbase).2 hd, Option.map_some, Nat.ofDigits_cons, Nat.add_comm]

theorem value?_eq_some_iff (hbase : base ≤ 16) : value? base t = some n ↔ Denotes base t n := by
  by_cases ht : t = []
  · simp [ht, value?, Denotes]
  · rw [value?_eq_valueFrom ht, valueFrom_eq_some_iff hbase, Denotes, and_iff_right ht]

theorem Denotes.exists_digit (h : Denotes base t n) (hg : g ∈ t) : ∃ d, ReadAs base d g := by
  obtain ⟨-, ds, hall, -⟩ := h
  rw [← List.mem_reverse] at hg
  generalize t.reverse = digits at hall hg
  induction hall with
  | nil => cases hg
  | cons hd _ ih =>
    rcases List.mem_cons.1 hg with rfl | hg
    · exact ⟨_, hd⟩
    · exact ih hg

theorem ReadAs.eq_digitChar (h : ReadAs 10 d g) : g = .scalar (Nat.digitChar d) := by
  have hall : ∀ d < 10, (ofString "0123456789abcdef")[d]? = some (.scalar (Nat.digitChar d)) ∧
      (ofString "0123456789ABCDEF")[d]? = some (.scalar (Nat.digitChar d)) := by decide
  obtain ⟨hd, hglyph⟩ := h
  obtain ⟨hlower, hupper⟩ := hall d hd
  rcases hglyph with hglyph | hglyph
  · exact Option.some.inj (hglyph.symm.trans hlower)
  · exact Option.some.inj (hglyph.symm.trans hupper)

theorem Denotes.isDigit (h : Denotes 10 t n) : ∀ g ∈ t, IsDigit 10 g := by
  intro g hg
  obtain ⟨d, hd⟩ := h.exists_digit hg
  exact ⟨d, hd.1, hd.eq_digitChar⟩

def Shortest (t : Text) : Prop := t.head? = some (.scalar '0') → t = [.scalar '0']

theorem shortest_decimal (n : Nat) : Shortest (decimal n) := by
  have hzero : ∀ d < 10, Nat.digitChar d = '0' → d = 0 := by decide
  unfold decimal
  induction n using Nat.strongRecOn with
  | ind n ih =>
    rw [digits_eq (by decide)]
    split
    · next h =>
      intro hhead
      have hn : n % 10 = 0 := hzero _ (Nat.mod_lt n (by decide)) (by simpa using hhead)
      rw [hn]
      rfl
    · next h =>
      intro hhead
      rw [List.head?_append_of_ne_nil _ (digits_ne_nil 10 _)] at hhead
      have hvalue : value? 10 (digits 10 (n / 10)) = some (n / 10) :=
        value?_digits (by decide) (by decide) _
      rw [ih (n / 10) (by omega) hhead] at hvalue
      have hquotient : 0 = n / 10 := Option.some.inj hvalue
      omega

/-- The induction takes off the last digit. The digits before it have no leading zero either, since
there is a digit after them. -/
theorem eq_decimal_of_value? (h : value? 10 t = some n) (hshort : Shortest t) : t = decimal n := by
  induction t using List.reverseRecOn generalizing n with
  | nil => cases h
  | append_singleton t g ih =>
    have hlast (m : Nat) : valueFrom 10 m [g] = (digit? 10 g).map (10 * m + ·) := by
      simp [valueFrom]
    rw [value?_eq_valueFrom (by simp), valueFrom_append, Option.bind_eq_some_iff] at h
    obtain ⟨m, hm, hn⟩ := h
    rw [hlast, Option.map_eq_some_iff] at hn
    obtain ⟨d, hd, rfl⟩ := hn
    have hread := (digit?_eq_some_iff (by decide)).1 hd
    have hlt := hread.1
    have hmod : (10 * m + d) % 10 = d := by omega
    rw [decimal, digits_eq (by decide), hmod, hread.eq_digitChar]
    by_cases ht : t = []
    · subst ht
      cases hm
      rw [if_pos (by omega)]
    · have hhead : t.head? ≠ some (.scalar '0') := by
        intro hzero
        have hwhole := hshort (by rw [List.head?_append_of_ne_nil _ ht, hzero])
        have hlength : t.length = 0 := by simpa using congrArg List.length hwhole
        exact ht (List.length_eq_zero_iff.1 hlength)
      have hrest := ih (by rw [value?_eq_valueFrom ht, hm]) fun hzero => absurd hzero hhead
      have hpos : m ≠ 0 := by
        rintro rfl
        exact hhead (by rw [hrest]; rfl)
      have hdiv : (10 * m + d) / 10 = m := by omega
      rw [if_neg (by omega), hdiv, hrest, decimal]

/-- A number has one decimal numeral without leading zeros. -/
theorem eq_decimal_iff : t = decimal n ↔ Denotes 10 t n ∧ Shortest t := by
  rw [← value?_eq_some_iff (by decide)]
  constructor
  · rintro rfl
    exact ⟨value?_digits (by decide) (by decide) n, shortest_decimal n⟩
  · rintro ⟨hvalue, hshort⟩
    exact eq_decimal_of_value? hvalue hshort

end Meaning

end Numeral

end Rv32i
