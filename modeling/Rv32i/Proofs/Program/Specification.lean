import Rv32i.Proofs.Encoding
import Rv32i.Proofs.Program.Emission

/-!
# What a program is assembled to

The words and labels of an assembled program are determined by its lines one by one: an instruction
by its own text, its index among the instructions and the final labels, a label by the number of
instructions before it. Nothing else is needed for a program to assemble.
-/

set_option autoImplicit false

namespace Rv32i

open Text (ofString)

namespace Program

variable {lines : List Text} {p p' : Program}

structure Realizes (p : Program) (lines : List Text) : Prop where
  /-- The labels are well formed. -/
  statements : ∀ raw ∈ lines, ∃ statement, Statement.ofLine raw = .ok statement
  /-- There is one word for each line with an instruction. -/
  count : p.words.length = (instructionLines lines).length
  /-- The words come in the order of these lines, encoded under all labels. -/
  words : ∀ k raw, (instructionLines lines)[k]? = some raw →
    ∃ w, p.words[k]? = some w ∧ Emits p.symbols k raw w
  /-- The labels are those written on the lines. -/
  symbols : ∀ name address, p.symbols.get? name = some address ↔
    ∃ i, labelAt lines i = some name ∧ address = wordAddress (instructionsBefore lines i)
  /-- No label is written on two lines. -/
  unique : ∀ i j name, labelAt lines i = some name → labelAt lines j = some name → i = j

theorem assemble_eq_ok : assemble lines = .ok p ↔
    ∃ s e, survey lines = .ok s ∧ emit s.symbols lines = .ok e ∧
      p = ⟨e.words.reverse, s.symbols⟩ := by
  simp only [assemble, bind_eq_ok, pure, Except.pure, Except.ok.injEq]
  constructor
  · rintro ⟨s, hs, e, he, rfl⟩
    exact ⟨s, e, hs, he, rfl⟩
  · rintro ⟨s, e, hs, he, rfl⟩
    exact ⟨s, hs, e, he, rfl⟩

theorem realizes_of_after {s : Survey} {e : Emission} (hs : s.After lines)
    (he : Emission.After s.symbols e lines) : Realizes ⟨e.words.reverse, s.symbols⟩ lines where
  statements := hs.statements
  count := by rw [List.length_reverse, he.count]
  words := he.words
  symbols _ _ := hs.get?_symbols
  unique _ _ _ := hs.label_unique

theorem realizes_of_assemble (h : assemble lines = .ok p) : p.Realizes lines := by
  obtain ⟨s, e, hs, he, rfl⟩ := assemble_eq_ok.1 h
  exact realizes_of_after (survey_after hs) (emit_after he)

theorem symbols_of_assemble (h : assemble lines = .ok p) {s : Survey} (hs : survey lines = .ok s) :
    p.symbols = s.symbols := by
  obtain ⟨s', e, hs', he, rfl⟩ := assemble_eq_ok.1 h
  rw [hs, Except.ok.injEq] at hs'
  rw [hs']

/-- The word of the line at index `i`. -/
theorem Realizes.word_at (h : p.Realizes lines) {i : Nat} {raw : Text} (hraw : lines[i]? = some raw)
    {label : Option Text} {d : Descriptor} {operands : List Text}
    (hparse : Line.parse raw = .ok ⟨label, some ⟨d, operands⟩⟩) :
    ∃ w, p.words[instructionsBefore lines i]? =
        some ⟨wordAddress (instructionsBefore lines i), w⟩ ∧
      d.encode operands (wordAddress (instructionsBefore lines i)) p.symbols = .ok w := by
  have hinstruction : Line.isInstruction raw = true := Line.isInstruction_of_parse hparse
  obtain ⟨⟨address, value⟩, hw, label', d', operands', hparse', rfl, hvalue⟩ :=
    h.words _ raw (getElem?_instructionLines hraw hinstruction)
  rw [hparse] at hparse'
  cases hparse'
  exact ⟨value, hw, hvalue⟩

theorem Emits.congr {symbols symbols' : SymbolTable}
    (h : ∀ name, symbols.get? name = symbols'.get? name) {k : Nat} {raw : Text} {w : PlacedWord}
    (hw : Emits symbols k raw w) : Emits symbols' k raw w := by
  obtain ⟨label, d, operands, hparse, haddress, hvalue⟩ := hw
  exact ⟨label, d, operands, hparse, haddress, Descriptor.encode_congr h ▸ hvalue⟩

theorem Emits.unique {symbols : SymbolTable} {k : Nat} {raw : Text} {w w' : PlacedWord}
    (h : Emits symbols k raw w) (h' : Emits symbols k raw w') : w = w' := by
  obtain ⟨address, value⟩ := w
  obtain ⟨address', value'⟩ := w'
  obtain ⟨label, d, operands, hparse, rfl, hvalue⟩ := h
  obtain ⟨label', d', operands', hparse', rfl, hvalue'⟩ := h'
  cases hparse.symm.trans hparse'
  cases hvalue.symm.trans hvalue'
  rfl

namespace Realizes

theorem get?_eq (h : p.Realizes lines) (h' : p'.Realizes lines) (name : Text) :
    p.symbols.get? name = p'.symbols.get? name := by
  apply Option.ext
  intro address
  rw [h.symbols, h'.symbols]

theorem words_eq (h : p.Realizes lines) (h' : p'.Realizes lines) : p.words = p'.words := by
  apply List.ext_getElem?
  intro k
  cases hk : (instructionLines lines)[k]? with
  | none =>
    have hover : (instructionLines lines).length ≤ k := List.getElem?_eq_none_iff.1 hk
    rw [List.getElem?_eq_none (h.count ▸ hover), List.getElem?_eq_none (h'.count ▸ hover)]
  | some raw =>
    obtain ⟨w, hw, hemits⟩ := h.words k raw hk
    obtain ⟨w', hw', hemits'⟩ := h'.words k raw hk
    rw [hw, hw', hemits.unique (hemits'.congr (h'.get?_eq h))]

/-- Every word comes from a line. -/
theorem line_of_word (h : p.Realizes lines) {k : Nat} {w : PlacedWord}
    (hw : p.words[k]? = some w) :
    ∃ raw, (instructionLines lines)[k]? = some raw ∧ Emits p.symbols k raw w := by
  have hk := (List.getElem?_eq_some_iff.1 hw).1
  rw [h.count] at hk
  have hraw := List.getElem?_eq_getElem hk
  obtain ⟨w', hw', hemits⟩ := h.words k _ hraw
  rw [Option.some.inj (hw.symm.trans hw')]
  exact ⟨_, hraw, hemits⟩

end Realizes

def Contiguous (p : Program) : Prop :=
  ∀ k w, p.words[k]? = some w → w.address = wordAddress k

theorem Realizes.contiguous (h : p.Realizes lines) : p.Contiguous := by
  intro k w hw
  obtain ⟨raw, -, _, _, _, -, haddress, -⟩ := h.line_of_word hw
  exact haddress

/-- What the lines describe is what they are assembled to. -/
theorem assemble_of_realizes (h : p.Realizes lines) :
    ∃ p', assemble lines = .ok p' ∧ p'.words = p.words ∧
      ∀ name, p'.symbols.get? name = p.symbols.get? name := by
  obtain ⟨s, hs, hsAfter⟩ := survey_succeeds h.statements h.unique
  have hget (name : Text) : p.symbols.get? name = s.symbols.get? name := by
    apply Option.ext
    intro address
    rw [h.symbols, hsAfter.get?_symbols]
  have hwords : ∀ k raw, (instructionLines lines)[k]? = some raw →
      ∃ w, Emits s.symbols k raw w := by
    intro k raw hraw
    obtain ⟨w, -, hemits⟩ := h.words k raw hraw
    exact ⟨w, hemits.congr hget⟩
  obtain ⟨e, he, heAfter⟩ := emit_succeeds h.statements hwords
  have hp' := realizes_of_after hsAfter heAfter
  exact ⟨_, assemble_eq_ok.2 ⟨s, e, hs, he, rfl⟩, hp'.words_eq h, hp'.get?_eq h⟩

/-- Lines without instructions do not move the count. -/
theorem instructionsBefore_eq {i j : Nat} (hij : i ≤ j)
    (h : ∀ m raw, i ≤ m → m < j → lines[m]? = some raw → Line.isInstruction raw = false) :
    instructionsBefore lines j = instructionsBefore lines i := by
  induction j, hij using Nat.le_induction with
  | base => rfl
  | succ j hij ih =>
    have hline : lines[j]?.any Line.isInstruction = false := by
      cases hj : lines[j]? with
      | none => rfl
      | some raw => exact h j raw hij (Nat.lt_succ_self j) hj
    rw [instructionsBefore_succ, hline,
      ih fun m raw hm hmj => h m raw hm (Nat.lt_succ_of_lt hmj)]
    rfl

/-- The line at index `j` holds the first instruction at or after index `i`. -/
structure NextInstruction (lines : List Text) (i j : Nat) (raw : Text) : Prop where
  le : i ≤ j
  line : lines[j]? = some raw
  instruction : Line.isInstruction raw = true
  between : ∀ m raw', i ≤ m → m < j → lines[m]? = some raw' → Line.isInstruction raw' = false

theorem Realizes.label_at_next (h : p.Realizes lines) {i j : Nat} {name raw : Text}
    (hlabel : labelAt lines i = some name) (hnext : NextInstruction lines i j raw) :
    ∃ w, p.words[instructionsBefore lines j]? = some w ∧
      Emits p.symbols (instructionsBefore lines j) raw w ∧
      p.symbols.get? name = some w.address := by
  obtain ⟨w, hw, hemits⟩ :=
    h.words _ raw (getElem?_instructionLines hnext.line hnext.instruction)
  have hplace : w.address = wordAddress (instructionsBefore lines j) := by
    obtain ⟨_, _, _, _, hplace, _⟩ := hemits
    exact hplace
  rw [instructionsBefore_eq hnext.le hnext.between] at hplace
  exact ⟨w, hw, hemits, (h.symbols name _).2 ⟨i, hlabel, hplace⟩⟩

theorem Realizes.label_at_end (h : p.Realizes lines) {i : Nat} {name : Text}
    (hlabel : labelAt lines i = some name)
    (hnone : ∀ j raw, i ≤ j → lines[j]? = some raw → Line.isInstruction raw = false) :
    p.symbols.get? name = some (wordAddress p.words.length) := by
  have hcount := instructionsBefore_eq (Nat.le_of_lt (lt_of_labelAt hlabel))
    fun m raw him _ => hnone m raw him
  rw [instructionsBefore_length, ← h.count] at hcount
  exact (h.symbols name _).2 ⟨i, hlabel, congrArg wordAddress hcount⟩

/-- A program assembles to exactly what its lines describe. A label leads to the word of the first
instruction at or after its line, or past the last word if there is none. -/
theorem assemble_meets_specification (lines : List Text) :
    (∀ p : Program, assemble lines = .ok p →
      p.Realizes lines ∧
      ∀ i name, labelAt lines i = some name →
        (∀ j raw, NextInstruction lines i j raw →
          ∃ w, p.words[instructionsBefore lines j]? = some w ∧
            Emits p.symbols (instructionsBefore lines j) raw w ∧
            p.symbols.get? name = some w.address) ∧
        ((∀ j raw, i ≤ j → lines[j]? = some raw → Line.isInstruction raw = false) →
          p.symbols.get? name = some (wordAddress p.words.length))) ∧
    ∀ p : Program, p.Realizes lines →
      ∃ p', assemble lines = .ok p' ∧ p'.words = p.words ∧
        ∀ name, p'.symbols.get? name = p.symbols.get? name := by
  constructor
  · intro p h
    have hp := realizes_of_assemble h
    refine ⟨hp, fun i name hlabel => ⟨fun j raw => hp.label_at_next hlabel, ?_⟩⟩
    exact hp.label_at_end hlabel
  · exact fun p => assemble_of_realizes

/-- A branch forward over a labelled instruction to a label with nothing after it. -/
theorem assemble_meets_specification_forward :
    ∃ p,
      assemble (["beq x0, x0, end", "loop: addi x1, x1, 1", "end: # done"].map ofString) = .ok p ∧
      p.words.length = 2 ∧
      (∃ w, p.words[1]? = some w ∧ p.symbols.get? (ofString "loop") = some w.address) ∧
      p.symbols.get? (ofString "end") = some 8 := by
  have hok : (assemble (["beq x0, x0, end", "loop: addi x1, x1, 1", "end: # done"].map
      ofString)).toOption.isSome = true := by decide
  obtain ⟨p, hp⟩ := exists_eq_ok hok
  obtain ⟨hrealizes, hlabels⟩ := (assemble_meets_specification _).1 p hp
  have hcount : p.words.length = 2 := hrealizes.count.trans (by decide)
  obtain ⟨w, hw, -, hloop⟩ := (hlabels 1 (ofString "loop") (by decide)).1 1 _
    ⟨Nat.le_refl 1, rfl, by decide, fun m _ hm hm' => absurd hm' (by omega)⟩
  have hend := (hlabels 2 (ofString "end") (by decide)).2 fun j raw hj hraw => by
    have hlast : j = 2 := by
      have hbound := (List.getElem?_eq_some_iff.1 hraw).1
      simp only [List.length_map, List.length_cons, List.length_nil] at hbound
      omega
    subst hlast
    cases hraw
    decide
  rw [hcount] at hend
  exact ⟨p, hp, hcount, ⟨w, hw, hloop⟩, hend⟩

end Program

end Rv32i
