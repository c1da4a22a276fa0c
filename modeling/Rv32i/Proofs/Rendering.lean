import Rv32i.Proofs.Disassembly
import Rv32i.Proofs.Text.Rows

/-!
# Renderings are read back

Each rendering consists of rows, or of groups of bytes, in which the words stand at known places.
Readers of the five forms, which look at nothing but these places, get back the words that were
rendered, so no two lists of different values have the same rendering.
-/

set_option autoImplicit false

namespace Rv32i

open Text (ofString)

namespace Fields

theorem writeOperands_inline (f : Fields) (isLoad : Bool) (pc : Address) :
    ∀ op ∈ f.writeOperands isLoad pc, op.Inline := by
  have hname : ∀ r : Register, r.name.Inline := by decide
  have himmediate : f.writeImmediate.Inline := Numeral.signed_inline f.immediate
  have hhex (w : Word) : Text.Inline (writeHex w) :=
    Text.inline_append.2 ⟨by decide, Numeral.digits_inline (by decide) (by decide) w.toNat⟩
  have hopen : Text.Inline [.scalar '('] := by decide
  have hclose : Text.Inline [.scalar ')'] := by decide
  have hcomment : Text.Inline (ofString " # ") := by decide
  have hmemory : Text.Inline f.writeMemory := by
    simp only [writeMemory, Text.inline_append]
    exact ⟨⟨⟨himmediate, hopen⟩, hname f.rs1⟩, hclose⟩
  have htransfer : Text.Inline (f.writeTransfer pc) := by
    simp only [writeTransfer, Text.inline_append]
    exact ⟨⟨himmediate, hcomment⟩, hhex _⟩
  unfold writeOperands
  cases f.format with
  | i => cases isLoad <;> simp [hname, himmediate, hmemory]
  | _ => simp [hname, hmemory, hhex, htransfer]

end Fields

namespace Word

theorem disassemble_inline (w : Word) (pc : Address) : Text.Inline (w.disassemble pc) := by
  have hmnemonic : ∀ d ∈ Descriptor.table, d.mnemonic.Inline := by decide
  have hdata : Text.Inline w.asData :=
    Text.inline_append.2 ⟨by decide, Numeral.places_inline (by decide) (by decide) 8 w.toNat⟩
  unfold disassemble
  split
  · next mnemonic hlookup =>
    obtain ⟨before, after, hsplit, -⟩ := List.lookup_eq_some_iff.1 hlookup
    obtain ⟨d, hd, -, -, rfl⟩ := Descriptor.mem_constants.1
      (hsplit ▸ List.mem_append_right before List.mem_cons_self)
    exact hmnemonic d hd
  split
  · exact hdata
  · next f _ =>
    split
    · exact hdata
    · next d hfind =>
      have hd := hmnemonic d (List.mem_of_find?_eq_some hfind)
      have hcomma : Text.Inline (ofString ", ") := by decide
      have hspace : Text.Inline [.scalar ' '] := by decide
      exact Text.inline_append.2 ⟨Text.inline_append.2 ⟨hd, hspace⟩,
        hcomma.intercalate (f.writeOperands_inline d.isLoad pc)⟩

/-- The number in the `i`-th group of four bytes, whose first byte is the least significant one. -/
def group (bytes : List UInt8) (i : Nat) : Nat :=
  Nat.ofDigits 256 (((bytes.drop (4 * i)).take 4).map UInt8.toNat)

theorem length_littleEndian (w : Word) : w.littleEndian.length = 4 := rfl

theorem group_littleEndian (w : Word) (bytes : List UInt8) :
    group (w.littleEndian ++ bytes) 0 = w.toNat := by
  have hw := w.isLt
  have hbytes : ((w.littleEndian ++ bytes).drop (4 * 0)).take 4 = w.littleEndian := rfl
  rw [group, hbytes]
  simp only [littleEndian, List.map_cons, List.map_nil, Nat.ofDigits_cons, Nat.ofDigits_nil,
    UInt8.toNat_ofBitVec, BitVec.extractLsb'_toNat, Nat.shiftRight_eq_div_pow]
  omega

theorem group_append (w : Word) (bytes : List UInt8) (i : Nat) :
    group (w.littleEndian ++ bytes) (i + 1) = group bytes i := by
  have hdrop : (w.littleEndian ++ bytes).drop (4 * (i + 1)) = bytes.drop (4 * i) := by
    rw [Nat.mul_succ, Nat.add_comm, ← List.drop_drop]
    rfl
  rw [group, hdrop, group]

def ofHex? (t : Text) : Option Word := (Numeral.value? 16 t).map (BitVec.ofNat 32)

theorem ofHex?_hex (w : Word) : ofHex? (Listing.hex w) = some w := by
  have hvalue : Numeral.value? 16 (Listing.hex w) = some w.toNat :=
    Numeral.value?_places (by decide) (by decide) w.isLt
  rw [ofHex?, hvalue, Option.map_some, BitVec.ofNat_toNat, BitVec.setWidth_eq]

end Word

namespace Numeral

def Spells (base width : Nat) (t : Text) (n : Nat) : Prop := t.length = width ∧ Denotes base t n

theorem spells_places {base width n : Nat} (hbase : base ≤ 16) (hwidth : 0 < width)
    (h : n < base ^ width) : Spells base width (places base width n) n :=
  ⟨length_places base width n, (value?_eq_some_iff hbase).1 (value?_places hbase hwidth h)⟩

theorem spells_hex (w : Word) : Spells 16 8 (Listing.hex w) w.toNat :=
  spells_places (by decide) (by decide) w.isLt

end Numeral

namespace Listing

def header : Text := ofString "// Memory initialization format"

def WordRow (w : PlacedWord) (row : Text) : Prop :=
  ∃ address value bits,
    row = ofString "0x" ++ address ++ ofString ": 0x" ++ value ++ ofString " 0b" ++ bits ∧
    Numeral.Spells 16 8 address w.address.toNat ∧ Numeral.Spells 16 8 value w.value.toNat ∧
    Numeral.Spells 2 32 bits w.value.toNat

def ValueRow (w : PlacedWord) (index : Nat) (row : Text) : Prop :=
  ∃ number value,
    row = ofString "instr_mem[" ++ number ++ ofString "] = 32\x27h" ++ value ++ ofString ";" ∧
    Numeral.Denotes 10 number index ∧ Numeral.Spells 16 8 value w.value.toNat

def note (annotate : Bool) (w : PlacedWord) : Text :=
  if annotate then ofString "  # " ++ w.value.disassemble w.address else []

theorem line_eq (annotate : Bool) (w : PlacedWord) :
    line annotate w = line false w ++ note annotate w := by
  simp [line, note]

theorem wordRow_line (w : PlacedWord) : WordRow w (line false w) :=
  ⟨hex w.address, hex w.value, Numeral.places 2 32 w.value.toNat, by simp [line],
    Numeral.spells_hex w.address, Numeral.spells_hex w.value,
    Numeral.spells_places (by decide) (by decide) w.value.isLt⟩

theorem initialValue_eq (index : Nat) (w : PlacedWord) : initialValue index w =
    ofString "instr_mem[" ++ Numeral.decimal index ++ ofString "] = 32\x27h" ++ hex w.value ++
      ofString ";" := by
  simp [initialValue, ofString]

theorem valueRow_initialValue (index : Nat) (w : PlacedWord) :
    ValueRow w index (initialValue index w) :=
  ⟨Numeral.decimal index, hex w.value, initialValue_eq index w,
    (Numeral.value?_eq_some_iff (by decide)).1
      (Numeral.value?_digits (by decide) (by decide) index),
    Numeral.spells_hex w.value⟩

theorem hex_inline (w : Word) : Text.Inline (hex w) :=
  Numeral.places_inline (by decide) (by decide) 8 w.toNat

theorem note_inline (annotate : Bool) (w : PlacedWord) : Text.Inline (note annotate w) := by
  unfold note
  split
  · exact Text.inline_append.2 ⟨by decide, w.value.disassemble_inline w.address⟩
  · exact List.forall_mem_nil _

theorem line_inline (annotate : Bool) (w : PlacedWord) : Text.Inline (line annotate w) := by
  have hbits : Text.Inline (Numeral.places 2 32 w.value.toNat) :=
    Numeral.places_inline (by decide) (by decide) 32 _
  have hstart : Text.Inline (ofString "0x") := by decide
  have hvalue : Text.Inline (ofString ": 0x") := by decide
  have hmark : Text.Inline (ofString " 0b") := by decide
  rw [line_eq, line, if_neg Bool.false_ne_true, List.append_nil]
  simp [Text.inline_append, hstart, hvalue, hmark, hbits, hex_inline, note_inline]

theorem initialValue_inline (index : Nat) (w : PlacedWord) :
    Text.Inline (initialValue index w) := by
  have hindex : Text.Inline (Numeral.decimal index) :=
    Numeral.digits_inline (by decide) (by decide) index
  have hstart : Text.Inline (ofString "instr_mem[") := by decide
  have hmark : Text.Inline (ofString "] = 32\x27h") := by decide
  have hend : Text.Inline (ofString ";") := by decide
  rw [initialValue_eq]
  simp [Text.inline_append, hstart, hmark, hend, hindex, hex_inline]

def word? (row : Text) : Option PlacedWord :=
  match Word.ofHex? ((row.drop 2).take 8), Word.ofHex? ((row.drop 14).take 8) with
  | some address, some value => some ⟨address, value⟩
  | _, _ => none

def value? (row : Text) : Option Word :=
  Word.ofHex? (((row.dropWhile (· != .scalar 'h')).drop 1).take 8)

theorem word?_line (annotate : Bool) (w : PlacedWord) : word? (line annotate w) = some w := by
  let last := ofString " 0b" ++ Numeral.places 2 32 w.value.toNat ++ note annotate w
  have hcolumns : line annotate w = ofString "0x" ++ (hex w.address ++ (ofString ": 0x" ++
      (hex w.value ++ last))) := by
    simp [line, note, last]
  have hlength (v : Word) : (hex v).length = 8 := Numeral.length_places 16 8 v.toNat
  have hstart : (ofString "0x").length = 2 := rfl
  have hmiddle : (ofString ": 0x").length = 4 := rfl
  have haddress : ((line annotate w).drop 2).take 8 = hex w.address := by
    rw [hcolumns, List.drop_left' hstart, List.take_left' (hlength w.address)]
  have hvalue : ((line annotate w).drop 14).take 8 = hex w.value := by
    have hskip (t : Text) : t.drop 14 = ((t.drop 2).drop 8).drop 4 := by
      simp only [List.drop_drop]
    rw [hskip, hcolumns, List.drop_left' hstart, List.drop_left' (hlength w.address),
      List.drop_left' hmiddle, List.take_left' (hlength w.value)]
  rw [word?, haddress, hvalue, Word.ofHex?_hex, Word.ofHex?_hex]

theorem value?_initialValue (index : Nat) (w : PlacedWord) :
    value? (initialValue index w) = some w.value := by
  have hindex : ∀ g ∈ Numeral.decimal index, g ≠ .scalar 'h' := by
    intro g hg
    have hall : ∀ d < 10, Nat.digitChar d ≠ 'h' := by decide
    obtain ⟨d, hd, rfl⟩ := Numeral.isDigit_of_mem_digits (by decide) hg
    simp [hall d hd]
  have hbefore : ∀ g ∈ ofString "instr_mem[" ++ Numeral.decimal index ++ ofString "] = 32\x27",
      (g != .scalar 'h') = true := by
    simp only [List.mem_append]
    rintro g ((hg | hg) | hg)
    · revert g
      decide
    · simpa using hindex g hg
    · revert g
      decide
  have hsplit : initialValue index w = (ofString "instr_mem[" ++ Numeral.decimal index ++
      ofString "] = 32\x27") ++ .scalar 'h' :: (hex w.value ++ ofString ";") := by
    simp [initialValue, ofString]
  have hlength : (hex w.value).length = 8 := Numeral.length_places 16 8 w.value.toNat
  rw [value?, hsplit, List.dropWhile_append_of_pos hbefore, List.dropWhile_cons_of_neg (by simp),
    List.drop_one, List.tail_cons, List.take_left' hlength, Word.ofHex?_hex]

end Listing

namespace Rendering

def rows (r : Rendering) (annotate : Bool) (words : List PlacedWord) : List Text :=
  let listed := words.map (Listing.line annotate)
  let image := Listing.header :: words.zipIdx.map fun (w, index) => Listing.initialValue index w
  match r with
  | text => listed ++ [] :: [] :: image
  | listing => listed
  | meminit => image
  | hex => words.map fun w => Listing.hex w.value
  | bin => []

theorem listing_eq_rows (annotate : Bool) (words : List PlacedWord) :
    Listing.listing annotate words = (rows listing annotate words).flatMap Listing.endLine := by
  simp [rows, Listing.listing, List.flatMap_map]

theorem memoryImage_eq_rows (annotate : Bool) (words : List PlacedWord) :
    Listing.memoryImage words = (rows meminit annotate words).flatMap Listing.endLine := by
  simp [rows, Listing.memoryImage, Listing.header, List.flatMap_map]

theorem render_eq_rows {r : Rendering} (hr : r ≠ bin) (annotate : Bool) (words : List PlacedWord) :
    r.render annotate words = Text.toBytes ((r.rows annotate words).flatMap Listing.endLine) := by
  cases r with
  | text =>
    rw [render, listing_eq_rows, memoryImage_eq_rows annotate]
    simp [rows, Listing.endLine, ofString]
  | listing => rw [render, listing_eq_rows]
  | meminit => rw [render, memoryImage_eq_rows annotate]
  | hex => simp [render, rows, Listing.hexLines, List.flatMap_map]
  | bin => exact absurd rfl hr

theorem rows_inline (r : Rendering) (annotate : Bool) (words : List PlacedWord) :
    ∀ row ∈ r.rows annotate words, Text.Inline row := by
  have hlisted : ∀ row ∈ words.map (Listing.line annotate), Text.Inline row :=
    List.forall_mem_map.2 fun w _ => Listing.line_inline annotate w
  have himage : ∀ row ∈ Listing.header ::
      words.zipIdx.map (fun (w, index) => Listing.initialValue index w), Text.Inline row := by
    refine List.forall_mem_cons.2 ⟨by decide, List.forall_mem_map.2 ?_⟩
    exact fun (w, index) _ => Listing.initialValue_inline index w
  cases r with
  | text =>
    refine List.forall_mem_append.2 ⟨hlisted, ?_⟩
    exact List.forall_mem_cons.2 ⟨List.forall_mem_nil _,
      List.forall_mem_cons.2 ⟨List.forall_mem_nil _, himage⟩⟩
  | listing => exact hlisted
  | meminit => exact himage
  | hex => exact List.forall_mem_map.2 fun w _ => Listing.hex_inline w.value
  | bin => exact List.forall_mem_nil _

def rowsOf? (bytes : List UInt8) : Option (List Text) := (Text.ofBytes bytes).rows?

theorem rowsOf?_render {r : Rendering} (hr : r ≠ bin) (annotate : Bool) (words : List PlacedWord) :
    rowsOf? (r.render annotate words) = some (r.rows annotate words) := by
  rw [rowsOf?, render_eq_rows hr, Text.rows?_toBytes (r.rows_inline annotate words)]

/-- The words of a listing with their addresses. A text has its listing before the first empty
row. -/
def words? (r : Rendering) (bytes : List UInt8) : Option (List PlacedWord) :=
  match r with
  | listing => (rowsOf? bytes).bind (·.mapM Listing.word?)
  | text => (rowsOf? bytes).bind fun rows => (rows.takeWhile (!·.isEmpty)).mapM Listing.word?
  | meminit | hex | bin => none

def values? (r : Rendering) (bytes : List UInt8) : Option (List Word) :=
  match r with
  | text | listing => (r.words? bytes).map (·.map PlacedWord.value)
  | meminit => (rowsOf? bytes).bind fun rows => (rows.drop 1).mapM Listing.value?
  | hex => (rowsOf? bytes).bind (·.mapM Word.ofHex?)
  | bin =>
    if bytes.length % 4 = 0 then
      some ((List.range (bytes.length / 4)).map fun i => BitVec.ofNat 32 (Word.group bytes i))
    else none

theorem mapM_map {α β γ : Type} {read : β → Option γ} {write : α → β} {value : α → γ}
    (h : ∀ a, read (write a) = some (value a)) (l : List α) :
    (l.map write).mapM read = some (l.map value) := by
  induction l with
  | nil => rfl
  | cons a l ih => simp [h, ih]

theorem takeWhile_rows_text (annotate : Bool) (words : List PlacedWord) :
    (rows text annotate words).takeWhile (!·.isEmpty) = words.map (Listing.line annotate) := by
  have hne : ∀ row ∈ words.map (Listing.line annotate), (!row.isEmpty) = true :=
    List.forall_mem_map.2 fun w _ => rfl
  rw [rows, List.takeWhile_append_of_pos hne]
  simp

/-- Listings and texts give back the words with their addresses. -/
theorem words?_render {r : Rendering} (hr : r = listing ∨ r = text) (annotate : Bool)
    (words : List PlacedWord) : r.words? (r.render annotate words) = some words := by
  have hread := mapM_map (Listing.word?_line annotate) words
  rw [List.map_id'] at hread
  rcases hr with rfl | rfl
  · rw [words?, rowsOf?_render (by decide), Option.bind_some]
    exact hread
  · rw [words?, rowsOf?_render (by decide), Option.bind_some, takeWhile_rows_text]
    exact hread

theorem length_render_bin (annotate : Bool) (words : List PlacedWord) :
    (render bin annotate words).length = 4 * words.length := by
  induction words with
  | nil => rfl
  | cons w words ih =>
    have hcons : render bin annotate (w :: words) =
        w.value.littleEndian ++ render bin annotate words := rfl
    rw [hcons, List.length_append, Word.length_littleEndian, ih, List.length_cons]
    omega

theorem group_render_bin (annotate : Bool) {words : List PlacedWord} {i : Nat} {w : PlacedWord}
    (h : words[i]? = some w) : Word.group (render bin annotate words) i = w.value.toNat := by
  induction words generalizing i with
  | nil => cases h
  | cons w' words ih =>
    cases i with
    | zero =>
      cases h
      exact Word.group_littleEndian w.value _
    | succ i => exact (Word.group_append w'.value _ i).trans (ih h)

theorem values?_meminit (annotate : Bool) (words : List PlacedWord) :
    values? meminit (render meminit annotate words) = some (words.map PlacedWord.value) := by
  have hread : (words.zipIdx.map fun (w, index) => Listing.initialValue index w).mapM
      Listing.value? = some (words.zipIdx.map fun (w, _) => w.value) :=
    mapM_map (fun (w, index) => Listing.value?_initialValue index w) words.zipIdx
  have hvalues : (words.zipIdx.map fun (w, _) => w.value) = words.map PlacedWord.value := by
    conv_rhs => rw [← List.zipIdx_map_fst 0 words, List.map_map]
    rfl
  rw [values?, rowsOf?_render (by decide), Option.bind_some, ← hvalues]
  exact hread

theorem values?_hex (annotate : Bool) (words : List PlacedWord) :
    values? hex (render hex annotate words) = some (words.map PlacedWord.value) := by
  have hrow (w : PlacedWord) : Word.ofHex? (Listing.hex w.value) = some w.value :=
    Word.ofHex?_hex w.value
  rw [values?, rowsOf?_render (by decide), Option.bind_some]
  exact mapM_map hrow words

theorem values?_bin (annotate : Bool) (words : List PlacedWord) :
    values? bin (render bin annotate words) = some (words.map PlacedWord.value) := by
  have hlength := length_render_bin annotate words
  have hmod : (render bin annotate words).length % 4 = 0 := by omega
  have hdiv : (render bin annotate words).length / 4 = words.length := by omega
  rw [values?, if_pos hmod, hdiv, Option.some.injEq]
  apply List.ext_getElem?
  intro i
  rw [List.getElem?_map, List.getElem?_map]
  cases hw : words[i]? with
  | none =>
    have hi := List.getElem?_eq_none_iff.1 hw
    rw [List.getElem?_eq_none (by simpa using hi)]
    rfl
  | some w =>
    obtain ⟨hi, -⟩ := List.getElem?_eq_some_iff.1 hw
    rw [List.getElem?_range hi, Option.map_some, group_render_bin annotate hw]
    simp

theorem values?_render (r : Rendering) (annotate : Bool) (words : List PlacedWord) :
    r.values? (r.render annotate words) = some (words.map PlacedWord.value) := by
  cases r with
  | text => rw [values?, words?_render (.inr rfl), Option.map_some]
  | listing => rw [values?, words?_render (.inl rfl), Option.map_some]
  | meminit => exact values?_meminit annotate words
  | hex => exact values?_hex annotate words
  | bin => exact values?_bin annotate words

structure Legible (annotate : Bool) (words : List PlacedWord) : Prop where
  bin_length : (render bin annotate words).length = 4 * words.length
  bin_group : ∀ i w, words[i]? = some w → Word.group (render bin annotate words) i = w.value.toNat
  hex_rows : ∃ rows, rowsOf? (render hex annotate words) = some rows ∧
    List.Forall₂ (fun w row => Numeral.Spells 16 8 row w.value.toNat) words rows
  meminit_rows : ∃ rows, rowsOf? (render meminit annotate words) = some (Listing.header :: rows) ∧
    List.Forall₂ (fun w row => Listing.ValueRow w.1 w.2 row) words.zipIdx rows
  listing_rows : ∃ plain notes, rowsOf? (render listing false words) = some plain ∧
    List.Forall₂ Listing.WordRow words plain ∧
    rowsOf? (render listing annotate words) = some (plain.zipWith (· ++ ·) notes) ∧
    notes.length = words.length ∧ (∀ note ∈ notes, .scalar '\n' ∉ note) ∧
    (annotate = false → ∀ note ∈ notes, note = [])
  text_parts : render text annotate words =
    render listing annotate words ++ (ofString "\n\n").toBytes ++ render meminit annotate words

theorem legible (annotate : Bool) (words : List PlacedWord) : Legible annotate words where
  bin_length := length_render_bin annotate words
  bin_group _ _ := group_render_bin annotate
  hex_rows := by
    refine ⟨_, rowsOf?_render (by decide) annotate words, ?_⟩
    exact List.forall₂_map_right_iff.2 (List.forall₂_same.2 fun w _ => Numeral.spells_hex w.value)
  meminit_rows := by
    refine ⟨_, rowsOf?_render (by decide) annotate words, ?_⟩
    exact List.forall₂_map_right_iff.2 (List.forall₂_same.2 fun w _ =>
      Listing.valueRow_initialValue w.2 w.1)
  listing_rows := by
    refine ⟨_, words.map (Listing.note annotate), rowsOf?_render (by decide) false words,
      ?_, ?_, List.length_map _, ?_, ?_⟩
    · exact List.forall₂_map_right_iff.2 (List.forall₂_same.2 fun w _ => Listing.wordRow_line w)
    · rw [rowsOf?_render (by decide) annotate words]
      simp only [rows, List.zipWith_map, List.zipWith_self, ← Listing.line_eq]
    · exact List.forall_mem_map.2 fun w _ => (Listing.note_inline annotate w).not_mem
    · rintro rfl
      exact List.forall_mem_map.2 fun w _ => rfl
  text_parts := by
    simp [render]

/-- Every form of some words can be read back: its layout is known, the readers give back the values
that were rendered, and words that are rendered alike have the same values, and in listings and
texts the same addresses. -/
theorem render_reads_back :
    (∀ annotate words, Legible annotate words) ∧
    (∀ r annotate words,
      values? r (render r annotate words) = some (words.map PlacedWord.value)) ∧
    ∀ r annotate annotate' words words', render r annotate words = render r annotate' words' →
      words.map PlacedWord.value = words'.map PlacedWord.value ∧
      (r = listing ∨ r = text →
        words.map PlacedWord.address = words'.map PlacedWord.address) := by
  refine ⟨legible, values?_render, fun r annotate annotate' words words' h => ⟨?_, fun hr => ?_⟩⟩
  · have hvalues := values?_render r annotate words
    rw [h, values?_render] at hvalues
    exact (Option.some.inj hvalues).symm
  · have hwords := words?_render hr annotate words
    rw [h, words?_render hr] at hwords
    rw [Option.some.inj hwords]

end Rendering

end Rv32i
