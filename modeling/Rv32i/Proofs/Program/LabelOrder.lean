import Rv32i.Proofs.Program.Specification
import Rv32i.Proofs.Source.Canonical
import Rv32i.Proofs.SymbolTable

/-!
# Labels in the order of their lines

As long as addresses do not wrap around, they grow from line to line. So the labels of a program are
listed in the order of their lines, up to labels at the same address.
-/

set_option autoImplicit false

namespace Rv32i

open Text (ofString)

namespace Program

variable {lines : List Text} {p : Program} {i j : Nat} {a b : Text}

/-- Labels consist of ASCII characters. -/
theorem decoded_of_labelAt (h : labelAt lines i = some a) : a.Decoded := by
  obtain ⟨raw, -, hlabel⟩ := Option.bind_eq_some_iff.1 h
  unfold Line.labelOf at hlabel
  split at hlabel
  · next statement hstatement =>
    have htext := Statement.labelText_of_isLabel (Statement.isLabel_of_ofLine hstatement hlabel)
    apply Text.decoded_of_scalar
    intro g hg
    obtain ⟨c, hc, -⟩ := htext.2 g hg
    exact ⟨c, hc⟩
  · cases hlabel

theorem Realizes.decoded_symbols (h : p.Realizes lines) : p.symbols.Decoded := by
  intro name address hname
  obtain ⟨i, hlabel, -⟩ := (h.symbols name address).1 hname
  exact decoded_of_labelAt hlabel

theorem Realizes.toNat_address (h : p.Realizes lines) (hroom : p.words.length < 0x40000000)
    (hlabel : labelAt lines i = some a) :
    ∃ x, p.symbols.get? a = some x ∧ x.toNat = 4 * instructionsBefore lines i := by
  refine ⟨_, (h.symbols a _).2 ⟨i, hlabel, rfl⟩, toNat_wordAddress ?_⟩
  have hle := instructionsBefore_le lines i
  rw [← h.count] at hle
  omega

theorem Realizes.before_of_lt (h : p.Realizes lines) (hroom : p.words.length < 0x40000000)
    (hij : i < j) (ha : labelAt lines i = some a) (hb : labelAt lines j = some b)
    (hne : p.symbols.get? a ≠ p.symbols.get? b) : p.symbols.Before a b := by
  obtain ⟨x, hx, hxi⟩ := h.toNat_address hroom ha
  obtain ⟨y, hy, hyj⟩ := h.toNat_address hroom hb
  have hle := instructionsBefore_mono lines (Nat.le_of_lt hij)
  have hxy : x.toNat ≠ y.toNat := by
    intro heq
    exact hne (by rw [hx, hy, BitVec.eq_of_toNat_eq heq])
  exact ⟨x, y, hx, hy, .inl (by omega)⟩

/-- The names of a symbol table are its labels, each once, by address and then by bytes. No other
list of them is in this order, so it does not matter how the table is enumerated. In a program
whose addresses do not wrap around, of two labels with different addresses the one on the earlier
line is listed first. -/
theorem names_canonical :
    (∀ s : SymbolTable, s.Decoded →
      (∀ listing, s.Lists listing ↔ listing = s.names) ∧
      ∀ s' : SymbolTable, s'.entries.Perm s.entries → s'.names = s.names) ∧
    ∀ lines p, assemble lines = .ok p → p.words.length < 0x40000000 →
      ∀ i j a b, i < j → labelAt lines i = some a → labelAt lines j = some b →
        p.symbols.get? a ≠ p.symbols.get? b → List.Sublist [a, b] p.symbols.names := by
  refine ⟨fun s hs => ⟨fun listing => SymbolTable.lists_iff hs, ?_⟩, ?_⟩
  · exact fun s' => SymbolTable.names_of_perm hs
  · intro lines p hp hroom i j a b hij ha hb hne
    have hrealizes := realizes_of_assemble hp
    apply SymbolTable.sublist_names hrealizes.decoded_symbols
    exact hrealizes.before_of_lt hroom hij ha hb hne

theorem names_canonical_shared :
    ∃ p, assemble (["z: nop", "b:", "a: nop"].map ofString) = .ok p ∧ p.words.length = 2 ∧
      p.symbols.Decoded ∧ p.symbols.Lists p.symbols.names ∧
      List.Sublist [ofString "z", ofString "b"] p.symbols.names := by
  have hok : (assemble (["z: nop", "b:", "a: nop"].map ofString)).toOption.isSome = true := by
    decide
  obtain ⟨p, hp⟩ := exists_eq_ok hok
  have hrealizes := realizes_of_assemble hp
  have hcount : p.words.length = 2 := hrealizes.count.trans (by decide)
  have hdecoded := hrealizes.decoded_symbols
  refine ⟨p, hp, hcount, hdecoded, ((names_canonical.1 p.symbols hdecoded).1 _).2 rfl, ?_⟩
  have hz : p.symbols.get? (ofString "z") = some 0 :=
    (hrealizes.symbols _ _).2 ⟨0, by decide, by decide⟩
  have hb : p.symbols.get? (ofString "b") = some 4 :=
    (hrealizes.symbols _ _).2 ⟨1, by decide, by decide⟩
  apply names_canonical.2 _ p hp (by omega) 0 1 _ _ (by decide) (by decide) (by decide)
  rw [hz, hb]
  decide

end Program

end Rv32i
