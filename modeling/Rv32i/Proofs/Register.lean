import Rv32i.Proofs.Text.Glyph
import Rv32i.Proofs.Text.Numeral
import Rv32i.Proofs.Text.Spacing
import Rv32i.Register

/-!
# Register names

Lower-casing takes two characters outside ASCII to an ASCII letter, and no register has one of these
two letters in its name. So a text is read as a register exactly if it is one of the register's
names, up to the case of ASCII letters. This can be told from the bytes of the text, each of which
has to be an ASCII character.
-/

set_option autoImplicit false

namespace Rv32i

open Text (ofString)

namespace Glyph

def foldCase : Glyph → Glyph
  | scalar c => scalar c.toLower
  | stray b => stray b

/-- An ASCII character to which nothing is lowered but itself and, if it is a letter, its upper
case. -/
def isSettled : Glyph → Bool
  | scalar c => 0 < c.toNat && c.toNat < 128 && c != 'i' && c != 'k'
  | stray _ => false

/-- The dotted capital I and the Kelvin sign are lowered to ASCII letters. -/
theorem lt_of_lowerCode_lt {n : Nat} (h : lowerCode n < 128) :
    n < 128 ∨ lowerCode n = 'i'.toNat ∨ lowerCode n = 'k'.toNat := by
  have hall : ∀ r ∈ CaseRun.table.filter (·.image < 128),
      r.first = r.last ∧ (r.image = 'i'.toNat ∨ r.image = 'k'.toNat) := by decide
  by_cases hn : n < 128
  · exact .inl hn
  · simp only [lowerCode, if_neg hn] at h ⊢
    split at h
    · next r hr =>
      have hcovers := List.find?_some hr
      simp only [CaseRun.covers, Bool.and_eq_true, decide_eq_true_eq] at hcovers
      have himage : r.image < 128 := Nat.lt_of_le_of_lt (Nat.le_add_right _ _) h
      obtain ⟨hsingle, hletter⟩ :=
        hall r (List.mem_filter.2 ⟨List.mem_of_find?_eq_some hr, decide_eq_true himage⟩)
      have hmap : r.map n = r.image := by
        rw [CaseRun.map]
        omega
      rw [hmap]
      exact .inr hletter
    · exact absurd h hn

/-- A number that is no code point stands for the null character. -/
theorem toNat_eq_of_ofNat {n : Nat} {c : Char} (h : Char.ofNat n = c) (hc : 0 < c.toNat) :
    n = c.toNat := by
  by_cases hn : n.isValidChar
  · have hchar : Char.ofNat n = Char.ofNatAux n hn := dif_pos hn
    rw [← h, hchar]
    rfl
  · have hnull : Char.ofNat n = '\x00' := dif_neg hn
    rw [← h, hnull] at hc
    cases hc

theorem toNat_lt_of_toLower {c d : Char} (h : d.toLower = c) (hc : c.toNat < 128) :
    d.toNat < 128 := by
  by_cases hd : d.val ≥ 'A'.val ∧ d.val ≤ 'Z'.val
  · exact Nat.lt_of_le_of_lt (UInt32.le_iff_toNat_le.1 hd.2) (by decide)
  · have hsame : d.toLower = d := dif_neg hd
    rwa [← h, hsame] at hc

/-- On ASCII both mappings agree, and outside of it neither reaches a settled character. -/
theorem lower_eq_iff {g h : Glyph} (hh : h.isSettled = true) : g.lower = h ↔ g.foldCase = h := by
  have hall : ∀ n < 128, Char.ofNat (lowerCode n) = (Char.ofNat n).toLower := by decide
  cases h with
  | stray b => cases hh
  | scalar c =>
    simp only [isSettled, Bool.and_eq_true, decide_eq_true_eq, bne_iff_ne] at hh
    obtain ⟨⟨⟨hpos, hascii⟩, hi⟩, hk⟩ := hh
    cases g with
    | stray b =>
      have hreplaced : ¬ (Char.ofNat 0xFFFD).toNat < 128 := by decide
      refine ⟨fun h => ?_, fun h => ?_⟩
      · cases h
        exact absurd hascii hreplaced
      · cases h
    | scalar d =>
      rw [lower, foldCase, scalar.injEq, scalar.injEq]
      have hagree (hd : d.toNat < 128) : Char.ofNat (lowerCode d.toNat) = d.toLower := by
        rw [hall d.toNat hd, Char.ofNat_toNat]
      constructor
      · intro h
        have hcode : lowerCode d.toNat = c.toNat := toNat_eq_of_ofNat h hpos
        rcases lt_of_lowerCode_lt (hcode ▸ hascii) with hd | hletter | hletter
        · rw [← hagree hd, h]
        · exact absurd (Char.toNat_inj.1 (hcode.symm.trans hletter)) hi
        · exact absurd (Char.toNat_inj.1 (hcode.symm.trans hletter)) hk
      · intro h
        rw [hagree (toNat_lt_of_toLower h hascii), h]

end Glyph

namespace Text

def foldCase (t : Text) : Text := t.map Glyph.foldCase

theorem lower_eq_iff_foldCase {t name : Text} (h : ∀ g ∈ name, g.isSettled = true) :
    t.lower = name ↔ t.foldCase = name := by
  induction name generalizing t with
  | nil => simp [lower, foldCase]
  | cons g name ih =>
    have hg := h g List.mem_cons_self
    have hname := ih (t := t.tail) fun g' hg' => h g' (List.mem_cons_of_mem _ hg')
    cases t with
    | nil => simp [lower, foldCase]
    | cons g' t =>
      simp only [lower, foldCase, List.map_cons, List.cons.injEq, Glyph.lower_eq_iff hg] at hname ⊢
      rw [and_congr_right_iff]
      exact fun _ => hname

end Text

namespace Register

def Named (t : Text) (r : Register) : Prop :=
  t.foldCase = r.numberedName ∨ t.foldCase = r.name ∨ t.foldCase = ofString "fp" ∧ r = 8

theorem mem_names_iff {name : Text} {r : Register} : (name, r) ∈ names ↔
    name = r.numberedName ∨ name = r.name ∨ name = ofString "fp" ∧ r = 8 := by
  have hall : ∀ r : Register, r ∈ all := by decide
  simp only [names, List.mem_append, List.mem_map, List.mem_singleton, Prod.mk.injEq]
  constructor
  · rintro ((⟨r', -, rfl, rfl⟩ | ⟨r', -, rfl, rfl⟩) | ⟨rfl, rfl⟩)
    · exact .inr (.inl rfl)
    · exact .inl rfl
    · exact .inr (.inr ⟨rfl, rfl⟩)
  · rintro (rfl | rfl | ⟨rfl, rfl⟩)
    · exact .inl (.inr ⟨r, hall r, rfl, rfl⟩)
    · exact .inl (.inl ⟨r, hall r, rfl, rfl⟩)
    · exact .inr ⟨rfl, rfl⟩

/-- No name stands for two registers. -/
theorem ofName?_eq_some_iff {name : Text} {r : Register} :
    ofName? name = some r ↔ (name, r) ∈ names := by
  have hall : ∀ e ∈ names, ofName? e.1 = some e.2 := by decide
  constructor
  · intro h
    obtain ⟨before, after, hsplit, -⟩ := List.lookup_eq_some_iff.1 h
    rw [hsplit]
    exact List.mem_append_right before List.mem_cons_self
  · exact hall (name, r)

variable {t token : Text} {r : Register}

theorem settled_of_mem_names {name : Text} (h : (name, r) ∈ names) :
    ∀ g ∈ name, g.isSettled = true := by
  have hall : ∀ e ∈ names, ∀ g ∈ e.1, g.isSettled = true := by decide
  exact hall (name, r) h

theorem named_iff_mem_names : Named t r ↔ (t.foldCase, r) ∈ names := mem_names_iff.symm

theorem ofName?_lower_eq_some_iff : ofName? t.lower = some r ↔ Named t r := by
  rw [ofName?_eq_some_iff, named_iff_mem_names]
  constructor
  · intro h
    rwa [(Text.lower_eq_iff_foldCase (settled_of_mem_names h)).1 rfl]
  · intro h
    rwa [(Text.lower_eq_iff_foldCase (settled_of_mem_names h)).2 rfl]

theorem parse_eq_ok_iff : parse token = .ok r ↔ Named token.trim r := by
  rw [← ofName?_lower_eq_some_iff, parse]
  cases ofName? token.trim.lower with
  | some r' => simp
  | none => simp

theorem kind_of_parse_eq_error {fault : Fault} (h : parse token = .error fault) :
    fault.kind = .unknownRegister := by
  unfold parse at h
  split at h
  · cases h
  · cases h
    rfl

end Register

section Bytes

def foldByte (b : UInt8) : UInt8 := if 0x41 ≤ b ∧ b ≤ 0x5A then b + 0x20 else b

theorem foldByte_of_le {b : UInt8} (h : 128 ≤ b.toNat) : foldByte b = b := by
  apply if_neg
  rintro ⟨-, hupper⟩
  have hle := UInt8.le_iff_toNat_le.1 hupper
  exact absurd (Nat.le_trans h hle) (by decide)

theorem Glyph.toBytes_foldCase {g : Glyph} (h : ∀ b, g = .stray b → 128 ≤ b.toNat) :
    g.foldCase.toBytes = g.toBytes.map foldByte := by
  have hall : ∀ n < 128, (Char.ofNat n).toLower.toNat < 128 ∧
      UInt8.ofNat (Char.ofNat n).toLower.toNat = foldByte (UInt8.ofNat n) := by decide
  cases g with
  | stray b => rw [foldCase, toBytes, List.map_singleton, foldByte_of_le (h b rfl)]
  | scalar c =>
    by_cases hc : c.toNat < 128
    · obtain ⟨hlt, hfold⟩ := hall c.toNat hc
      rw [Char.ofNat_toNat] at hlt hfold
      rw [foldCase, toBytes, toBytes, encode_of_ascii hlt, encode_of_ascii hc, hfold,
        List.map_singleton]
    · have hsame : c.toLower = c := by
        apply dif_neg
        rintro ⟨-, hupper⟩
        exact hc (Nat.lt_of_le_of_lt (UInt32.le_iff_toNat_le.1 hupper) (by decide))
      have hhigh : ∀ b ∈ String.utf8EncodeChar c, foldByte b = b := by
        intro b hb
        apply foldByte_of_le
        rcases eq_singleton_or_le_of_mem_encode hb with ⟨-, hcode⟩ | hle
        · omega
        · exact hle
      rw [foldCase, hsame, toBytes, List.map_congr_left hhigh, List.map_id']

namespace Text

variable {t name : Text}

theorem toBytes_foldCase (h : t.Decoded) : t.foldCase.toBytes = t.toBytes.map foldByte := by
  induction t with
  | nil => rfl
  | cons g t ih =>
    have hg : g.foldCase.toBytes = g.toBytes.map foldByte := by
      apply Glyph.toBytes_foldCase
      rintro b rfl
      exact h.le_of_stray List.mem_cons_self
    rw [toBytes_cons, List.map_append, ← hg, ← ih (decoded_cons.1 h).1]
    rfl

theorem toNat_lt_of_mem_toBytes (h : ∀ g ∈ t, g.isSettled = true) {b : UInt8}
    (hb : b ∈ t.toBytes) : b.toNat < 128 := by
  obtain ⟨g, hg, hb⟩ := List.mem_flatMap.1 hb
  have hsettled := h g hg
  cases g with
  | stray b' => cases hsettled
  | scalar c =>
    simp only [Glyph.isSettled, Bool.and_eq_true, decide_eq_true_eq] at hsettled
    rw [Glyph.toBytes, Glyph.encode_of_ascii hsettled.1.1.2, List.mem_singleton] at hb
    rw [hb, UInt8.toNat_ofNat']
    omega

theorem decoded_of_settled (h : ∀ g ∈ t, g.isSettled = true) : t.Decoded := by
  apply decoded_of_scalar
  intro g hg
  have hsettled := h g hg
  cases g with
  | scalar c => exact ⟨c, rfl⟩
  | stray b => cases hsettled

/-- A text is compared with a name by their bytes. -/
theorem foldCase_eq_iff (ht : t.Decoded) (hname : ∀ g ∈ name, g.isSettled = true) :
    t.foldCase = name ↔ t.toBytes.map foldByte = name.toBytes := by
  rw [← toBytes_foldCase ht]
  refine ⟨congrArg toBytes, fun hbytes => ?_⟩
  have hscalar : ∀ g ∈ t.foldCase, ∃ c, g = .scalar c := by
    intro g hg
    obtain ⟨g', hg', rfl⟩ := List.mem_map.1 hg
    cases g' with
    | scalar c => exact ⟨c.toLower, rfl⟩
    | stray b =>
      -- A stray byte is no ASCII character, but all bytes of a name are.
      have hhigh := ht.le_of_stray hg'
      have hmem : b ∈ t.foldCase.toBytes := List.mem_flatMap.2 ⟨_, hg, List.mem_singleton_self b⟩
      have hlow := toNat_lt_of_mem_toBytes hname (hbytes ▸ hmem)
      omega
  calc t.foldCase = ofBytes t.foldCase.toBytes := (decoded_of_scalar hscalar).symm
    _ = ofBytes name.toBytes := by rw [hbytes]
    _ = name := decoded_of_settled hname

end Text

namespace Register

variable {bytes : List UInt8} {r : Register}

/-- The bytes are an `x` and the number of the register in decimal without leading zeros, its name
by convention, or the second name of register 8, with ASCII letters of either case. -/
def Spells (bytes : List UInt8) (r : Register) : Prop :=
  (∃ digits, bytes.map foldByte = Text.toBytes (ofString "x" ++ digits) ∧
    Numeral.Denotes 10 digits r.toNat ∧ Numeral.Shortest digits) ∨
  (∃ name, conventionNames[r.toNat]? = some name ∧ bytes.map foldByte = name.toBytes) ∨
  bytes.map foldByte = (ofString "fp").toBytes ∧ r = 8

theorem spells_iff : Spells bytes r ↔
    ∃ name, (name, r) ∈ names ∧ bytes.map foldByte = name.toBytes := by
  have hconvention : ∀ r : Register, conventionNames[r.toNat]? = some r.name := by decide
  simp only [Spells, hconvention, mem_names_iff, Option.some.injEq]
  constructor
  · rintro (⟨digits, h, hdigits⟩ | ⟨name, rfl, h⟩ | ⟨h, rfl⟩)
    · refine ⟨r.numberedName, .inl rfl, ?_⟩
      rwa [Numeral.eq_decimal_iff.2 hdigits] at h
    · exact ⟨r.name, .inr (.inl rfl), h⟩
    · exact ⟨ofString "fp", .inr (.inr ⟨rfl, rfl⟩), h⟩
  · rintro ⟨name, rfl | rfl | ⟨rfl, rfl⟩, h⟩
    · exact .inl ⟨_, h, Numeral.eq_decimal_iff.1 rfl⟩
    · exact .inr (.inl ⟨_, rfl, h⟩)
    · exact .inr (.inr ⟨h, rfl⟩)

theorem named_iff_spells {t : Text} (ht : t.Decoded) : Named t r ↔ Spells t.toBytes r := by
  rw [named_iff_mem_names, spells_iff]
  constructor
  · intro h
    exact ⟨_, h, (Text.foldCase_eq_iff ht (settled_of_mem_names h)).1 rfl⟩
  · rintro ⟨name, hname, h⟩
    rwa [(Text.foldCase_eq_iff ht (settled_of_mem_names hname)).2 h]

theorem Spells.toNat_lt (h : Spells bytes r) : ∀ b ∈ bytes, b.toNat < 128 := by
  intro b hb
  obtain ⟨name, hname, hbytes⟩ := spells_iff.1 h
  have hfolded : foldByte b ∈ name.toBytes := hbytes ▸ List.mem_map_of_mem hb
  have hlow := Text.toNat_lt_of_mem_toBytes (settled_of_mem_names hname) hfolded
  by_contra hhigh
  rw [foldByte_of_le (by omega)] at hlow
  exact hhigh hlow

/-- A byte string is read as a register exactly if it is one of its names between white space, up to
the case of ASCII letters. All others name an unknown register, among them those with a byte other
than an ASCII character. -/
theorem parse_accepts_names (bytes : List UInt8) :
    (∀ r, parse (Text.ofBytes bytes) = .ok r ↔ Spells (Text.trimBytes bytes) r) ∧
    ((∀ r, ¬ Spells (Text.trimBytes bytes) r) →
      ∃ fault, parse (Text.ofBytes bytes) = .error fault ∧ fault.kind = .unknownRegister) ∧
    ∀ b ∈ Text.trimBytes bytes, 128 ≤ b.toNat →
      ∃ fault, parse (Text.ofBytes bytes) = .error fault ∧ fault.kind = .unknownRegister := by
  have hdecoded : (Text.ofBytes bytes).trim.Decoded :=
    (Text.decoded_ofBytes bytes).of_isInfix (Text.trim_isInfix _)
  have hspells (r : Register) :
      parse (Text.ofBytes bytes) = .ok r ↔ Spells (Text.trimBytes bytes) r :=
    parse_eq_ok_iff.trans (named_iff_spells hdecoded)
  have herror (hnone : ∀ r, ¬ Spells (Text.trimBytes bytes) r) :
      ∃ fault, parse (Text.ofBytes bytes) = .error fault ∧ fault.kind = .unknownRegister := by
    cases hparse : parse (Text.ofBytes bytes) with
    | ok r => exact absurd ((hspells r).1 hparse) (hnone r)
    | error fault => exact ⟨fault, rfl, kind_of_parse_eq_error hparse⟩
  refine ⟨hspells, herror, fun b hb hhigh => herror fun r h => ?_⟩
  have hlow := h.toNat_lt b hb
  omega

end Register

end Bytes

end Rv32i
