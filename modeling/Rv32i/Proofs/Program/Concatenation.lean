import Rv32i.Proofs.Program.Specification
import Rv32i.Proofs.Reference
import Rv32i.Proofs.SymbolTable

/-!
# Programs one after the other

Two programs that do not refer to each other's labels can be assembled as one. The second is moved
behind the first with its labels, and as long as it uses none of them as a number its words stay the
same: a branch or jump sees only the distance to its target.
-/

set_option autoImplicit false

namespace Rv32i

open Text (ofString)

def PlacedWord.moved (n : Nat) (w : PlacedWord) : PlacedWord :=
  ⟨w.address + Program.wordAddress n, w.value⟩

namespace Program

theorem wordAddress_add (j k : Nat) : wordAddress (j + k) = wordAddress j + wordAddress k := by
  rw [wordAddress, Nat.mul_add, BitVec.ofNat_add]
  rfl

section Append

variable {first second : List Text}

theorem instructionLines_append :
    instructionLines (first ++ second) = instructionLines first ++ instructionLines second :=
  List.filter_append _ _

theorem instructionsBefore_append_right (i : Nat) :
    instructionsBefore (first ++ second) (first.length + i) =
      instructionsBefore second i + (instructionLines first).length := by
  rw [instructionsBefore, List.take_length_add_append, List.countP_append, Nat.add_comm,
    List.countP_eq_length_filter (l := first)]
  rfl

theorem labelAt_append_right (i : Nat) :
    labelAt (first ++ second) (first.length + i) = labelAt second i := by
  rw [labelAt, List.getElem?_append_right (Nat.le_add_right _ _), Nat.add_sub_cancel_left, labelAt]

theorem labelAt_append_iff {i : Nat} {name : Text} :
    labelAt (first ++ second) i = some name ↔
      labelAt first i = some name ∨ ∃ j, i = first.length + j ∧ labelAt second j = some name := by
  by_cases hlt : i < first.length
  · rw [labelAt_append first hlt]
    constructor
    · exact .inl
    · rintro (hfirst | ⟨j, rfl, -⟩)
      · exact hfirst
      · omega
  · obtain ⟨j, rfl⟩ := Nat.exists_eq_add_of_le (Nat.le_of_not_lt hlt)
    rw [labelAt_append_right]
    constructor
    · exact fun hsecond => .inr ⟨j, rfl, hsecond⟩
    · rintro (hfirst | ⟨j', heq, hsecond⟩)
      · exact absurd (lt_of_labelAt hfirst) hlt
      · rwa [Nat.add_left_cancel heq]

end Append

def references (lines : List Text) : List (Descriptor × Text) :=
  lines.filterMap fun raw => do
    let line ← (Line.parse raw).toOption
    let instruction ← line.instruction
    let t ← instruction.descriptor.reference? instruction.operands
    return (instruction.descriptor, t)

theorem mem_references {lines : List Text} {raw : Text} (hraw : raw ∈ lines) {label : Option Text}
    {d : Descriptor} {operands : List Text}
    (hparse : Line.parse raw = .ok ⟨label, some ⟨d, operands⟩⟩) {t : Text}
    (ht : d.reference? operands = some t) : (d, t) ∈ references lines := by
  apply List.mem_filterMap.2
  refine ⟨raw, hraw, ?_⟩
  rw [hparse]
  simp [Except.toOption, ht]

structure Linkable (first second : List Text) (p q : Program) : Prop where
  /-- All words have addresses of their own. -/
  room : p.words.length + q.words.length < 0x40000000
  disjoint : ∀ name, p.symbols.get? name = none ∨ q.symbols.get? name = none
  first_closed : ∀ r ∈ references first, q.symbols.get? r.2 = none
  second_closed : ∀ r ∈ references second, p.symbols.get? r.2 = none
  /-- The second program refers to its labels by their distance only. -/
  relative : ∀ r ∈ references second, r.1.format = .i ∨ r.1.format = .u →
    q.symbols.get? r.2 = none

section Moved

variable {first second : List Text} {p q : Program}

theorem Realizes.address_of_label (h : q.Realizes second) {name : Text} {address : Address}
    (hname : q.symbols.get? name = some address) :
    ∃ k, k ≤ q.words.length ∧ address = wordAddress k := by
  obtain ⟨i, -, rfl⟩ := (h.symbols name address).1 hname
  exact ⟨_, h.count ▸ instructionsBefore_le second i, rfl⟩

theorem toNat_moved {n k : Nat} (h : n + k < 0x40000000) :
    (wordAddress k + wordAddress n).toNat = (wordAddress k).toNat + 4 * n := by
  rw [← wordAddress_add, toNat_wordAddress (by omega), toNat_wordAddress (by omega)]
  omega

/-- The labels of both programs, those of the second moved. -/
theorem get?_symbols_append {s : Survey} (hs : s.After (first ++ second)) (hp : p.Realizes first)
    (hq : q.Realizes second)
    (hdisjoint : ∀ name, p.symbols.get? name = none ∨ q.symbols.get? name = none) (name : Text) :
    s.symbols.get? name = (p.symbols.get? name).or
      ((q.symbols.get? name).map (· + wordAddress p.words.length)) := by
  apply Option.ext
  intro address
  rw [hs.get?_symbols]
  constructor
  · rintro ⟨i, hi, rfl⟩
    rcases labelAt_append_iff.1 hi with hfirst | ⟨j, rfl, hsecond⟩
    · rw [instructionsBefore_append first (Nat.le_of_lt (lt_of_labelAt hfirst)),
        (hp.symbols name _).2 ⟨i, hfirst, rfl⟩]
      rfl
    · have hname := (hq.symbols name _).2 ⟨j, hsecond, rfl⟩
      have hnone := (hdisjoint name).resolve_right (by simp [hname])
      rw [instructionsBefore_append_right, wordAddress_add, hnone, hname, hp.count]
      rfl
  · intro h
    rcases Option.or_eq_some_iff.1 h with hfirst | ⟨-, hsecond⟩
    · obtain ⟨i, hi, rfl⟩ := (hp.symbols name _).1 hfirst
      refine ⟨i, labelAt_append_iff.2 (.inl hi), ?_⟩
      rw [instructionsBefore_append first (Nat.le_of_lt (lt_of_labelAt hi))]
    · obtain ⟨address', hname, rfl⟩ := Option.map_eq_some_iff.1 hsecond
      obtain ⟨j, hj, rfl⟩ := (hq.symbols name _).1 hname
      refine ⟨first.length + j, labelAt_append_iff.2 (.inr ⟨j, rfl, hj⟩), ?_⟩
      rw [instructionsBefore_append_right, wordAddress_add, hp.count]

end Moved

/-- Where a reference denotes the same in another place, the instruction has the same word there. -/
theorem Emits.of_denote {symbols symbols' : SymbolTable} {k k' : Nat} {raw : Text} {w : PlacedWord}
    (h : Emits symbols k raw w)
    (hsame : ∀ label d operands t, Line.parse raw = .ok ⟨label, some ⟨d, operands⟩⟩ →
      d.reference? operands = some t →
      d.denote t (wordAddress k) symbols = d.denote t (wordAddress k') symbols') :
    Emits symbols' k' raw ⟨wordAddress k', w.value⟩ := by
  obtain ⟨label, d, operands, hparse, -, hvalue⟩ := h
  refine ⟨label, d, operands, hparse, rfl, ?_⟩
  rw [← hvalue]
  exact (Descriptor.encode_eq_of_reference fun t => hsame label d operands t hparse).symm

end Program

/-- A reference keeps its meaning when the instruction and the label move together. -/
theorem Descriptor.denote_moved {d : Descriptor} {symbols symbols' : SymbolTable} {t : Text}
    {n k : Nat} (htakes : d.takesReference = true)
    (hget : symbols'.get? t = (symbols.get? t).map (· + Program.wordAddress n))
    (hroom : n + k < 0x40000000)
    (hlabel : ∀ address, symbols.get? t = some address →
      ∃ j, n + j < 0x40000000 ∧ address = Program.wordAddress j)
    (htrim : t.trim = t) (hrelative : d.format = .i ∨ d.format = .u → symbols.get? t = none) :
    d.denote t (Program.wordAddress k) symbols =
      d.denote t (Program.wordAddress (k + n)) symbols' := by
  have habsolute (h : symbols.get? t = none) :
      Immediate.resolve t symbols = Immediate.resolve t symbols' := by
    simp only [Immediate.resolve, htrim, hget, h, Option.map_none]
  have htarget : Target.resolve t (Program.wordAddress k) symbols =
      Target.resolve t (Program.wordAddress (k + n)) symbols' := by
    simp only [Target.resolve, hget]
    cases hname : symbols.get? t with
    | none => rfl
    | some address =>
      obtain ⟨j, hj, rfl⟩ := hlabel address hname
      have hpc := Program.toNat_moved hroom
      have haddress := Program.toNat_moved hj
      simp only [Option.map_some, Program.wordAddress_add k n, haddress, hpc]
      congr 1
      omega
  unfold takesReference at htakes
  unfold denote
  cases hformat : d.format with
  | i => exact habsolute (hrelative (.inl hformat))
  | u => exact habsolute (hrelative (.inr hformat))
  | b => exact htarget
  | j => exact htarget
  | r | s | unassigned =>
    simp only [hformat] at htakes
    cases htakes

namespace Program

variable {first second : List Text} {p q : Program}

theorem Linkable.unique (h : Linkable first second p q) (hp : p.Realizes first)
    (hq : q.Realizes second) (i j : Nat) (name : Text)
    (hi : labelAt (first ++ second) i = some name)
    (hj : labelAt (first ++ second) j = some name) : i = j := by
  have hfirst {i : Nat} (hi : labelAt first i = some name) : p.symbols.get? name ≠ none := by
    simp [(hp.symbols name _).2 ⟨i, hi, rfl⟩]
  have hsecond {j : Nat} (hj : labelAt second j = some name) : q.symbols.get? name ≠ none := by
    simp [(hq.symbols name _).2 ⟨j, hj, rfl⟩]
  have hnot := h.disjoint name
  rcases labelAt_append_iff.1 hi with hi' | ⟨i', rfl, hi'⟩
  · rcases labelAt_append_iff.1 hj with hj' | ⟨j', rfl, hj'⟩
    · exact hp.unique i j name hi' hj'
    · exact absurd hnot (not_or.2 ⟨hfirst hi', hsecond hj'⟩)
  · rcases labelAt_append_iff.1 hj with hj' | ⟨j', rfl, hj'⟩
    · exact absurd hnot (not_or.2 ⟨hfirst hj', hsecond hi'⟩)
    · rw [hq.unique i' j' name hi' hj']

theorem Linkable.emits_first (h : Linkable first second p q) {symbols : SymbolTable}
    (hget : ∀ name, symbols.get? name = (p.symbols.get? name).or
      ((q.symbols.get? name).map (· + wordAddress p.words.length)))
    {k : Nat} {raw : Text} (hraw : raw ∈ first) {w : PlacedWord} (hw : Emits p.symbols k raw w) :
    Emits symbols k raw w := by
  have haddress : w = ⟨wordAddress k, w.value⟩ := by
    obtain ⟨label, d, operands, -, haddress, -⟩ := hw
    rw [← haddress]
  rw [haddress]
  apply hw.of_denote
  intro label d operands t hparse ht
  apply Descriptor.denote_congr (Line.trim_of_reference hparse ht)
  rw [hget, h.first_closed (d, t) (mem_references hraw hparse ht), Option.map_none, Option.or_none]

theorem Linkable.emits_second (h : Linkable first second p q) (hq : q.Realizes second)
    {symbols : SymbolTable} (hget : ∀ name, symbols.get? name = (p.symbols.get? name).or
      ((q.symbols.get? name).map (· + wordAddress p.words.length)))
    {k : Nat} (hk : k < q.words.length) {raw : Text} (hraw : raw ∈ second) {w : PlacedWord}
    (hw : Emits q.symbols k raw w) :
    Emits symbols (k + p.words.length) raw (w.moved p.words.length) := by
  have haddress : w.moved p.words.length = ⟨wordAddress (k + p.words.length), w.value⟩ := by
    obtain ⟨label, d, operands, -, haddress, -⟩ := hw
    rw [PlacedWord.moved, haddress, wordAddress_add]
  have hroom := h.room
  rw [haddress]
  apply hw.of_denote
  intro label d operands t hparse ht
  have hrefers : (d, t) ∈ references second := mem_references hraw hparse ht
  apply Descriptor.denote_moved (Descriptor.reference?_eq_some.1 ht).1
  · rw [hget, h.second_closed (d, t) hrefers, Option.none_or]
  · omega
  · intro address hname
    obtain ⟨j, hj, rfl⟩ := hq.address_of_label hname
    exact ⟨j, by omega, rfl⟩
  · exact Line.trim_of_reference hparse ht
  · exact h.relative (d, t) hrefers

/-- Behind the first program, the second is described by its own lines. -/
theorem Linkable.realizes (h : Linkable first second p q) (hp : p.Realizes first)
    (hq : q.Realizes second) {s : Survey} (hs : s.After (first ++ second)) :
    Realizes ⟨p.words ++ q.words.map (PlacedWord.moved p.words.length), s.symbols⟩
      (first ++ second) where
  statements := hs.statements
  count := by
    rw [instructionLines_append, List.length_append, List.length_append, List.length_map, hp.count,
      hq.count]
  words := by
    have hget := get?_symbols_append hs hp hq h.disjoint
    intro k raw hraw
    rw [instructionLines_append] at hraw
    by_cases hlt : k < p.words.length
    · rw [List.getElem?_append_left (hp.count ▸ hlt)] at hraw
      obtain ⟨w, hw, hemits⟩ := hp.words k raw hraw
      have hmem : raw ∈ first := (List.mem_filter.1 (List.mem_of_getElem? hraw)).1
      refine ⟨w, ?_, h.emits_first hget hmem hemits⟩
      rw [List.getElem?_append_left hlt, hw]
    · obtain ⟨j, rfl⟩ := Nat.exists_eq_add_of_le' (Nat.le_of_not_lt hlt)
      rw [List.getElem?_append_right (hp.count ▸ Nat.le_add_left _ _), ← hp.count,
        Nat.add_sub_cancel] at hraw
      obtain ⟨w, hw, hemits⟩ := hq.words j raw hraw
      have hmem : raw ∈ second := (List.mem_filter.1 (List.mem_of_getElem? hraw)).1
      have hj : j < q.words.length := (List.getElem?_eq_some_iff.1 hw).1
      refine ⟨w.moved p.words.length, ?_, h.emits_second hq hget hj hmem hemits⟩
      rw [List.getElem?_append_right (Nat.le_add_left _ _), Nat.add_sub_cancel, List.getElem?_map, hw]
      rfl
  symbols _ _ := hs.get?_symbols
  unique := h.unique hp hq

/-- Assembling two programs as one gives the words of the first and then those of the second, and
the labels of both, with the second moved behind the first. Moving does not wrap around. -/
theorem assemble_append {first second : List Text} {p q : Program} (hp : assemble first = .ok p)
    (hq : assemble second = .ok q) (h : Linkable first second p q) :
    ∃ r, assemble (first ++ second) = .ok r ∧
      r.words = p.words ++ q.words.map (PlacedWord.moved p.words.length) ∧
      (∀ name, r.symbols.get? name = (p.symbols.get? name).or
        ((q.symbols.get? name).map (· + wordAddress p.words.length))) ∧
      (∀ w ∈ q.words, (w.moved p.words.length).address.toNat =
        w.address.toNat + 4 * p.words.length) ∧
      ∀ name address, q.symbols.get? name = some address →
        (address + wordAddress p.words.length).toNat = address.toNat + 4 * p.words.length := by
  have hfirst := realizes_of_assemble hp
  have hsecond := realizes_of_assemble hq
  have hroom := h.room
  have hstatements : ∀ raw ∈ first ++ second, ∃ statement, Statement.ofLine raw = .ok statement := by
    intro raw hraw
    rcases List.mem_append.1 hraw with hraw | hraw
    · exact hfirst.statements raw hraw
    · exact hsecond.statements raw hraw
  obtain ⟨s, -, hs⟩ := survey_succeeds hstatements (h.unique hfirst hsecond)
  obtain ⟨r, hr, hwords, hsymbols⟩ := assemble_of_realizes (h.realizes hfirst hsecond hs)
  refine ⟨r, hr, hwords, ?_, ?_, ?_⟩
  · intro name
    rw [hsymbols, get?_symbols_append hs hfirst hsecond h.disjoint]
  · intro w hw
    obtain ⟨k, hk⟩ := List.mem_iff_getElem?.1 hw
    have hlt := (List.getElem?_eq_some_iff.1 hk).1
    rw [PlacedWord.moved, hsecond.contiguous k w hk]
    exact toNat_moved (by omega)
  · intro name address hname
    obtain ⟨k, hk, rfl⟩ := hsecond.address_of_label hname
    exact toNat_moved (by omega)

/-- Two programs with branches and jumps both ways, and a fixed operand that no label replaces. -/
theorem assemble_append_loop :
    let first := ["loop: addi x1, x1, 1", "bne x1, x2, loop"].map ofString
    let second := ["back: jal x1, end", "nop", "beq x0, x0, back", "end:"].map ofString
    ∃ p q r, assemble first = .ok p ∧ assemble second = .ok q ∧ Linkable first second p q ∧
      assemble (first ++ second) = .ok r ∧
      r.words = p.words ++ q.words.map (PlacedWord.moved 2) ∧
      r.symbols.get? (ofString "loop") = some 0 ∧ r.symbols.get? (ofString "end") = some 20 := by
  intro first second
  obtain ⟨p, hp⟩ := exists_eq_ok (x := assemble first) (by decide)
  obtain ⟨q, hq⟩ := exists_eq_ok (x := assemble second) (by decide)
  have hchecked : ∀ p ∈ (assemble first).toOption, ∀ q ∈ (assemble second).toOption,
      (p.words.length = 2 ∧ q.words.length = 3) ∧
      (∀ e ∈ p.symbols.entries, q.symbols.get? e.1 = none) ∧
      (∀ r ∈ references first, q.symbols.get? r.2 = none) ∧
      (∀ r ∈ references second, p.symbols.get? r.2 = none) ∧
      (∀ r ∈ references second, r.1.format = .i ∨ r.1.format = .u → q.symbols.get? r.2 = none) ∧
      p.symbols.get? (ofString "loop") = some 0 ∧ q.symbols.get? (ofString "end") = some 12 := by
    decide
  obtain ⟨⟨hlength, hlength'⟩, hdisjoint, hfirst, hsecond, hrelative, hloop, hend⟩ :=
    hchecked p (by rw [hp]; rfl) q (by rw [hq]; rfl)
  have hlink : Linkable first second p q := by
    refine ⟨by omega, fun name => ?_, hfirst, hsecond, hrelative⟩
    cases hname : p.symbols.get? name with
    | none => exact .inl rfl
    | some address => exact .inr (hdisjoint _ (SymbolTable.mem_entries hname))
  obtain ⟨r, hr, hwords, hsymbols, -⟩ := assemble_append hp hq hlink
  rw [hlength] at hwords hsymbols
  refine ⟨p, q, r, hp, hq, hlink, hr, hwords, ?_, ?_⟩
  · rw [hsymbols, hloop]
    rfl
  · rw [hsymbols, hend, (hlink.disjoint _).resolve_right (by simp [hend])]
    rfl

end Program

end Rv32i
