import Mathlib.Data.List.Nodup
import Rv32i.Proofs.Text.Glyph
import Rv32i.SymbolTable

/-!
# The listing of a symbol table

Labels are listed by address, and those at one address by the bytes of their names. This orders the
labels of a table strictly and totally. So there is only one such listing, in whatever order the
labels are enumerated and however they are sorted.
-/

set_option autoImplicit false

namespace Rv32i

theorem Text.Decoded.eq_of_toBytes {s t : Text} (hs : s.Decoded) (ht : t.Decoded)
    (h : s.toBytes = t.toBytes) : s = t := by
  rw [← hs, h]
  exact ht

namespace SymbolTable

variable {s s' : SymbolTable} {name a b : Text} {address : Address}

theorem mem_entries (h : s.get? name = some address) : (name, address) ∈ s.entries := by
  obtain ⟨before, after, hentries, -⟩ := List.lookup_eq_some_iff.1 h
  rw [hentries]
  exact List.mem_append_right before List.mem_cons_self

theorem get?_eq_some_iff : s.get? name = some address ↔ (name, address) ∈ s.entries := by
  refine ⟨mem_entries, fun h => ?_⟩
  obtain ⟨before, after, hentries⟩ := List.append_of_mem h
  refine List.lookup_eq_some_iff.2 ⟨before, after, hentries, fun e he => ?_⟩
  have hdistinct := s.distinct
  rw [hentries, List.map_append, List.nodup_append] at hdistinct
  rw [bne_iff_ne]
  exact (hdistinct.2.2 e.1 (List.mem_map_of_mem he) name List.mem_cons_self).symm

def Decoded (s : SymbolTable) : Prop := ∀ name address, s.get? name = some address → name.Decoded

def Before (s : SymbolTable) (a b : Text) : Prop :=
  ∃ x y, s.get? a = some x ∧ s.get? b = some y ∧
    (x.toNat < y.toNat ∨ x = y ∧ a.toBytes < b.toBytes)

section Order

theorem Before.asymm (h : s.Before a b) : ¬ s.Before b a := by
  rintro ⟨y', x', hb', ha', horder'⟩
  obtain ⟨x, y, ha, hb, horder⟩ := h
  cases ha.symm.trans ha'
  cases hb.symm.trans hb'
  rcases horder with hlt | ⟨rfl, hlt⟩
  · rcases horder' with hlt' | ⟨rfl, -⟩
    · omega
    · omega
  · rcases horder' with hlt' | ⟨-, hlt'⟩
    · omega
    · exact List.lt_asymm hlt hlt'

theorem precedes_iff {e e' : Text × Address} : precedes e e' = true ↔
    e.2.toNat < e'.2.toNat ∨ e.2 = e'.2 ∧ e.1.toBytes ≤ e'.1.toBytes := by
  simp [precedes, Text.le, BitVec.lt_def]

theorem precedes_trans (e e' e'' : Text × Address) (h : precedes e e' = true)
    (h' : precedes e' e'' = true) : precedes e e'' = true := by
  rw [precedes_iff] at h h' ⊢
  rcases h with hlt | ⟨heq, hle⟩
  · rcases h' with hlt' | ⟨heq', -⟩
    · exact .inl (Nat.lt_trans hlt hlt')
    · exact .inl (heq' ▸ hlt)
  · rw [heq]
    exact h'.imp_right fun ⟨heq', hle'⟩ => ⟨heq', List.le_trans hle hle'⟩

theorem precedes_total (e e' : Text × Address) : (precedes e e' || precedes e' e) = true := by
  rw [Bool.or_eq_true, precedes_iff, precedes_iff]
  rcases Nat.lt_trichotomy e.2.toNat e'.2.toNat with hlt | heq | hlt
  · exact .inl (.inl hlt)
  · have haddress := BitVec.eq_of_toNat_eq heq
    rcases List.le_total e.1.toBytes e'.1.toBytes with hle | hle
    · exact .inl (.inr ⟨haddress, hle⟩)
    · exact .inr (.inr ⟨haddress.symm, hle⟩)
  · exact .inr (.inl hlt)

end Order

section Names

theorem names_perm (s : SymbolTable) : s.names.Perm (s.entries.map Prod.fst) :=
  (List.mergeSort_perm s.entries precedes).map Prod.fst

theorem nodup_names (s : SymbolTable) : s.names.Nodup := s.names_perm.nodup_iff.2 s.distinct

theorem mem_names_iff : name ∈ s.names ↔ ∃ address, s.get? name = some address := by
  rw [s.names_perm.mem_iff, List.mem_map]
  constructor
  · rintro ⟨e, he, rfl⟩
    exact ⟨e.2, get?_eq_some_iff.2 he⟩
  · rintro ⟨address, h⟩
    exact ⟨(name, address), mem_entries h, rfl⟩

theorem pairwise_before_names (hs : s.Decoded) : s.names.Pairwise s.Before := by
  have hsorted := List.pairwise_mergeSort precedes_trans precedes_total s.entries
  have hnodup := s.nodup_names
  rw [names, List.nodup_iff_pairwise_ne, List.pairwise_map] at hnodup
  rw [names, List.pairwise_map]
  apply (hsorted.and hnodup).imp_of_mem
  rintro e e' he he' ⟨hprecedes, hne⟩
  have hget {e : Text × Address} (he : e ∈ s.ordered) : s.get? e.1 = some e.2 :=
    get?_eq_some_iff.2 ((List.mergeSort_perm _ _).mem_iff.1 he)
  refine ⟨e.2, e'.2, hget he, hget he', ?_⟩
  rcases precedes_iff.1 hprecedes with hlt | ⟨heq, hle⟩
  · exact .inl hlt
  · -- Different names have different bytes.
    refine .inr ⟨heq, Std.lt_of_le_of_ne hle fun hbytes => hne ?_⟩
    exact (hs _ _ (hget he)).eq_of_toBytes (hs _ _ (hget he')) hbytes

structure Lists (s : SymbolTable) (listing : List Text) : Prop where
  complete : ∀ name, name ∈ listing ↔ ∃ address, s.get? name = some address
  nodup : listing.Nodup
  ascending : listing.Pairwise s.Before

/-- No other list of the labels is in order. -/
theorem lists_iff (hs : s.Decoded) {listing : List Text} :
    s.Lists listing ↔ listing = s.names := by
  constructor
  · rintro ⟨hcomplete, hnodup, hascending⟩
    have hperm : listing.Perm s.names :=
      (List.perm_ext_iff_of_nodup hnodup s.nodup_names).2 fun name => by
        rw [hcomplete, mem_names_iff]
    refine List.Perm.eq_of_pairwise ?_ hascending (pairwise_before_names hs) hperm
    exact fun a b _ _ hab hba => absurd hba hab.asymm
  · rintro rfl
    exact ⟨fun _ => mem_names_iff, s.nodup_names, pairwise_before_names hs⟩

theorem get?_of_perm (h : s'.entries.Perm s.entries) (name : Text) :
    s'.get? name = s.get? name := by
  apply Option.ext
  intro address
  rw [get?_eq_some_iff, get?_eq_some_iff, h.mem_iff]

theorem names_of_perm (hs : s.Decoded) (h : s'.entries.Perm s.entries) : s'.names = s.names := by
  have hget := get?_of_perm h
  have hs' : s'.Decoded := fun name address => hget name ▸ hs name address
  have hbefore : s'.Before = s.Before := by
    funext a b
    simp only [Before, hget]
  obtain ⟨hcomplete, hnodup, hascending⟩ := (lists_iff hs').2 rfl
  simp only [hget, hbefore] at hcomplete hascending
  exact (lists_iff hs).1 ⟨hcomplete, hnodup, hascending⟩

/-- Of two labels the one that comes before the other is listed before it. -/
theorem sublist_names (hs : s.Decoded) (h : s.Before a b) : List.Sublist [a, b] s.names := by
  have hascending := pairwise_before_names hs
  obtain ⟨x, y, ha, hb, -⟩ := id h
  obtain ⟨init, rest, hnames⟩ := List.append_of_mem (mem_names_iff.2 ⟨x, ha⟩)
  have hmem := mem_names_iff.2 ⟨y, hb⟩
  rw [hnames, List.pairwise_append] at hascending
  rw [hnames] at hmem ⊢
  rcases List.mem_append.1 hmem with hmem | hmem
  · exact absurd (hascending.2.2 b hmem a List.mem_cons_self) h.asymm
  · rcases List.mem_cons.1 hmem with rfl | hmem
    · exact absurd h h.asymm
    · exact ((List.singleton_sublist.2 hmem).cons_cons a).trans (List.sublist_append_right _ _)

end Names

end SymbolTable

end Rv32i
