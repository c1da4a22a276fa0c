import Mathlib.Data.List.Infix
import Rv32i.Text.Glyph

/-!
# Parts of decoded texts

A text that was decoded from bytes can be told by its bytes, and so can each of its parts: cutting a
text never makes bytes come together to a character that was not there before. Putting parts
together with an ASCII character between them does not either.
-/

set_option autoImplicit false

namespace Rv32i

namespace Glyph

theorem candidate_encode (c : Char) (rest : List UInt8) :
    candidate (String.utf8EncodeChar c ++ rest) = c := by
  have hbound : c.toNat < 0x110000 := by
    rcases c.valid with h | h
    · exact Nat.lt_trans h (by decide)
    · exact h.2
  have hval : c.val.toNat = c.toNat := rfl
  conv_rhs => rw [← Char.ofNat_toNat c]
  simp only [candidate, String.utf8EncodeChar, hval]
  congr 1
  split
  · simp only [List.cons_append, List.nil_append, List.getD_cons_zero, UInt8.toNat_ofNat']
    rw [if_pos (by omega)]
    omega
  · split
    · simp only [List.cons_append, List.nil_append, List.getD_cons_zero, List.getD_cons_succ,
        UInt8.toNat_ofNat']
      rw [if_neg (by omega), if_pos (by omega)]
      omega
    · split
      · simp only [List.cons_append, List.nil_append, List.getD_cons_zero, List.getD_cons_succ,
          UInt8.toNat_ofNat']
        rw [if_neg (by omega), if_neg (by omega), if_pos (by omega)]
        omega
      · simp only [List.cons_append, List.nil_append, List.getD_cons_zero, List.getD_cons_succ,
          UInt8.toNat_ofNat']
        rw [if_neg (by omega), if_neg (by omega), if_neg (by omega)]
        omega

theorem front?_encode (c : Char) (rest : List UInt8) :
    front? (String.utf8EncodeChar c ++ rest) = some c := by
  rw [front?, candidate_encode]
  exact if_pos (List.isPrefixOf_iff_prefix.2 ⟨rest, rfl⟩)

theorem encode_of_ascii {c : Char} (h : c.toNat < 128) :
    String.utf8EncodeChar c = [UInt8.ofNat c.toNat] := by
  have hval : c.val.toNat ≤ 127 := Nat.le_of_lt_succ h
  simp only [String.utf8EncodeChar, if_pos hval]
  rfl

/-- An ASCII character is its only byte, and no other character has one of these bytes. -/
theorem eq_singleton_or_le_of_mem_encode {c : Char} {b : UInt8}
    (h : b ∈ String.utf8EncodeChar c) :
    String.utf8EncodeChar c = [b] ∧ b.toNat = c.toNat ∨ 128 ≤ b.toNat := by
  by_cases hc : c.toNat < 128
  · rw [encode_of_ascii hc, List.mem_singleton] at h
    left
    rw [h, UInt8.toNat_ofNat']
    exact ⟨encode_of_ascii hc, by omega⟩
  · right
    have hval : c.val.toNat = c.toNat := rfl
    simp only [String.utf8EncodeChar, hval] at h
    split at h
    · omega
    split at h
    · simp only [List.mem_cons, List.not_mem_nil, or_false] at h
      rcases h with h | h <;> rw [h, UInt8.toNat_ofNat'] <;> omega
    split at h
    · simp only [List.mem_cons, List.not_mem_nil, or_false] at h
      rcases h with h | h | h <;> rw [h, UInt8.toNat_ofNat'] <;> omega
    · simp only [List.mem_cons, List.not_mem_nil, or_false] at h
      rcases h with h | h | h | h <;> rw [h, UInt8.toNat_ofNat'] <;> omega

/-- Only the first byte of a character can be an ASCII character. -/
theorem le_of_mem_tail_encode {c : Char} {b : UInt8} (h : b ∈ (String.utf8EncodeChar c).tail) :
    128 ≤ b.toNat := by
  rcases eq_singleton_or_le_of_mem_encode (List.mem_of_mem_tail h) with ⟨hsingle, -⟩ | hle
  · rw [hsingle] at h
    cases h
  · exact hle

end Glyph

namespace Text

theorem decodeFrom_eq_append (decoded : Text) (skip : Nat) (bytes : List UInt8) :
    decodeFrom decoded skip bytes = decoded.reverse ++ ofBytes (bytes.drop skip) := by
  unfold ofBytes
  induction bytes generalizing decoded skip with
  | nil => simp [decodeFrom]
  | cons b bytes ih =>
    cases skip with
    | succ k => simp [decodeFrom, ih]
    | zero =>
      simp only [decodeFrom, List.drop_zero]
      split
      · rw [ih, ih [_]]
        simp
      · rw [ih, ih [_]]
        simp

theorem ofBytes_encode (c : Char) (bytes : List UInt8) :
    ofBytes (String.utf8EncodeChar c ++ bytes) = .scalar c :: ofBytes bytes := by
  obtain ⟨b, tail, htail⟩ := List.exists_cons_of_ne_nil (String.utf8EncodeChar_ne_nil (c := c))
  have hfront := Glyph.front?_encode c bytes
  have hsize : tail.length = c.utf8Size - 1 := by
    rw [← String.length_utf8EncodeChar, htail, List.length_cons, Nat.add_sub_cancel]
  rw [htail, List.cons_append] at hfront ⊢
  rw [ofBytes, decodeFrom, hfront]
  dsimp only
  rw [decodeFrom_eq_append, ← hsize, List.drop_left]
  rfl

theorem ofBytes_stray {b : UInt8} {bytes : List UInt8} (h : Glyph.front? (b :: bytes) = none) :
    ofBytes (b :: bytes) = .stray b :: ofBytes bytes := by
  rw [ofBytes, decodeFrom, h, decodeFrom_eq_append]
  rfl

def Decoded (t : Text) : Prop := ofBytes t.toBytes = t

theorem decoded_ofBytes (bytes : List UInt8) : (ofBytes bytes).Decoded := by
  rw [Decoded, toBytes_ofBytes]

/-- A byte stands for itself only where no character begins. -/
theorem decoded_cons {g : Glyph} {t : Text} : Decoded (g :: t) ↔
    t.Decoded ∧ ∀ b, g = .stray b → Glyph.front? (b :: t.toBytes) = none := by
  unfold Decoded
  cases g with
  | scalar c => simp [Glyph.toBytes, ofBytes_encode]
  | stray b =>
    simp only [toBytes_cons, Glyph.toBytes, List.singleton_append, Glyph.stray.injEq, forall_eq']
    cases hfront : Glyph.front? (b :: t.toBytes) with
    | none => simp [ofBytes_stray hfront]
    | some c =>
      obtain ⟨rest, hrest⟩ := Glyph.eq_append_of_front? hfront
      simp [hrest, ofBytes_encode]

/-- An ASCII byte is a character wherever it stands. -/
theorem Decoded.le_of_stray {t : Text} (h : t.Decoded) {b : UInt8} (hb : .stray b ∈ t) :
    128 ≤ b.toNat := by
  have hall : ∀ n < 128, (Char.ofNat n).toNat = n := by decide
  induction t with
  | nil => cases hb
  | cons g t ih =>
    obtain ⟨hrest, hstray⟩ := decoded_cons.1 h
    rcases List.mem_cons.1 hb with rfl | hb
    · by_contra hlt
      have hcode := hall b.toNat (by omega)
      have hfront := Glyph.front?_encode (Char.ofNat b.toNat) (toBytes t)
      rw [Glyph.encode_of_ascii (by omega), hcode, UInt8.ofNat_toNat, List.singleton_append,
        hstray b rfl] at hfront
      cases hfront
    · exact ih hrest hb

theorem Decoded.of_append_right {s t : Text} (h : Decoded (s ++ t)) : t.Decoded := by
  induction s with
  | nil => exact h
  | cons g s ih => exact ih (decoded_cons.1 h).1

theorem Decoded.of_append_left {s t : Text} (h : Decoded (s ++ t)) : s.Decoded := by
  induction s with
  | nil => rfl
  | cons g s ih =>
    rw [List.cons_append] at h
    obtain ⟨hrest, hstray⟩ := decoded_cons.1 h
    refine decoded_cons.2 ⟨ih hrest, fun b hb => ?_⟩
    -- A character at the front of the part would stand at the front of the whole.
    have hwhole := hstray b hb
    cases hfront : Glyph.front? (b :: toBytes s) with
    | none => rfl
    | some c =>
      obtain ⟨rest, hs⟩ := Glyph.eq_append_of_front? hfront
      rw [toBytes_append, ← List.cons_append, hs, List.append_assoc, Glyph.front?_encode] at hwhole
      cases hwhole

theorem Decoded.of_isInfix {s t : Text} (h : t.Decoded) (hs : s <:+: t) : s.Decoded := by
  obtain ⟨a, b, rfl⟩ := hs
  exact h.of_append_left.of_append_right

theorem toBytes_append_ascii {c : Char} (hc : c.toNat < 128) (before after : Text) :
    toBytes (before ++ .scalar c :: after) =
      before.toBytes ++ UInt8.ofNat c.toNat :: after.toBytes := by
  rw [toBytes_append, toBytes_cons, Glyph.toBytes, Glyph.encode_of_ascii hc, List.singleton_append]

/-- An ASCII character is found in the bytes of a text exactly if it is in the text. -/
theorem Decoded.mem_toBytes_iff {t : Text} (h : t.Decoded) {c : Char} (hc : c.toNat < 128) :
    UInt8.ofNat c.toNat ∈ t.toBytes ↔ .scalar c ∈ t := by
  have hcode : (UInt8.ofNat c.toNat).toNat = c.toNat := by
    rw [UInt8.toNat_ofNat']
    omega
  constructor
  · intro hmem
    obtain ⟨g, hg, hb⟩ := List.mem_flatMap.1 hmem
    cases g with
    | stray b =>
      have hle := h.le_of_stray hg
      rw [← List.mem_singleton.1 hb, hcode] at hle
      omega
    | scalar d =>
      rcases Glyph.eq_singleton_or_le_of_mem_encode hb with ⟨-, hd⟩ | hle
      · rwa [Char.toNat_inj.1 (hcode.symm.trans hd)]
      · omega
  · intro hmem
    apply List.mem_flatMap.2
    refine ⟨.scalar c, hmem, ?_⟩
    rw [Glyph.toBytes, Glyph.encode_of_ascii hc]
    exact List.mem_singleton_self _

theorem Decoded.scalar_append {s t : Text} (hs : ∀ g ∈ s, ∃ c, g = .scalar c) (ht : t.Decoded) :
    Decoded (s ++ t) := by
  induction s with
  | nil => exact ht
  | cons g s ih =>
    obtain ⟨c, rfl⟩ := hs g List.mem_cons_self
    exact decoded_cons.2 ⟨ih fun g' hg' => hs g' (List.mem_cons_of_mem _ hg'), nofun⟩

/-- Characters are decoded to themselves. -/
theorem decoded_of_scalar {t : Text} (h : ∀ g ∈ t, ∃ c, g = .scalar c) : t.Decoded := by
  rw [← List.append_nil t]
  exact Decoded.scalar_append h rfl

/-- No character reaches across an ASCII character. -/
theorem Decoded.append_ascii {s t : Text} (hs : s.Decoded) (ht : t.Decoded) {c : Char}
    (hc : c.toNat < 128) : Decoded (s ++ .scalar c :: t) := by
  induction s with
  | nil => exact decoded_cons.2 ⟨ht, nofun⟩
  | cons g s ih =>
    obtain ⟨hrest, hstray⟩ := decoded_cons.1 hs
    refine decoded_cons.2 ⟨ih hrest, fun b hb => ?_⟩
    have hpart := hstray b hb
    cases hfront : Glyph.front? (b :: toBytes (s ++ .scalar c :: t)) with
    | none => rfl
    | some d =>
      obtain ⟨rest, hbytes⟩ := Glyph.eq_append_of_front? hfront
      rw [toBytes_append_ascii hc, ← List.cons_append] at hbytes
      rcases List.append_eq_append_iff.1 hbytes with ⟨beyond, hd, hbeyond⟩ | ⟨within, hpart', -⟩
      · -- The character ends right before the ASCII character, or the latter is one of its bytes.
        cases beyond with
        | nil =>
          rw [List.append_nil] at hd
          have hwhole := Glyph.front?_encode d []
          rw [List.append_nil, hd, hpart] at hwhole
          cases hwhole
        | cons b' beyond =>
          obtain ⟨rfl, -⟩ := List.cons.inj hbeyond
          have hmem : UInt8.ofNat c.toNat ∈ (String.utf8EncodeChar d).tail := by
            rw [hd, List.cons_append, List.tail_cons]
            exact List.mem_append_right _ List.mem_cons_self
          have hle := Glyph.le_of_mem_tail_encode hmem
          rw [UInt8.toNat_ofNat'] at hle
          omega
      · rw [hpart', Glyph.front?_encode] at hpart
        cases hpart

theorem Decoded.intercalate {c : Char} (hc : c.toNat < 128) {sep : Text}
    (hsep : ∀ g ∈ sep, ∃ c, g = .scalar c) {ts : List Text} (h : ∀ t ∈ ts, t.Decoded) :
    Decoded ((.scalar c :: sep).intercalate ts) := by
  induction ts with
  | nil => rfl
  | cons t ts ih =>
    have ht := h t List.mem_cons_self
    have hrest := ih fun t' ht' => h t' (List.mem_cons_of_mem _ ht')
    by_cases hts : ts = []
    · rwa [hts, List.intercalate_singleton]
    · rw [List.intercalate_cons_of_ne_nil hts, List.append_assoc, List.cons_append]
      exact ht.append_ascii (hrest.scalar_append hsep) hc

end Text

end Rv32i
