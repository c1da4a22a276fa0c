import Rv32i.Proofs.Program.Simulation
import Rv32i.Proofs.Program.Specification
import Rv32i.Proofs.Reference
import Rv32i.Proofs.Source.Written

/-!
# The names of labels do not matter

A program keeps its words when its labels are renamed, where they are defined and where they are
referred to. Different labels need different new names, and no new name may be what an immediate or
target already is that was no label before.
-/

set_option autoImplicit false

namespace Rv32i

open Text (ofString)

namespace Instruction

def mapReference (ρ : Text → Text) (i : Instruction) : Instruction :=
  if i.descriptor.takesReference then
    ⟨i.descriptor, i.operands.dropLast ++ (i.operands.getLast?.map ρ).toList⟩
  else i

variable {ρ : Text → Text} {i : Instruction}

/-- An instruction without a reference stays as it is, and in others only the last operand changes. -/
theorem mapReference_cases (ρ : Text → Text) (hfixed : i.descriptor.fixed = none) :
    (i.descriptor.reference? i.operands = none ∧ i.mapReference ρ = i) ∨
    ∃ init t, i.operands = init ++ [t] ∧ i.descriptor.takesReference = true ∧
      i.descriptor.reference? i.operands = some t ∧
      i.mapReference ρ = ⟨i.descriptor, init ++ [ρ t]⟩ := by
  obtain ⟨d, operands⟩ := i
  simp only [mapReference, Descriptor.reference?, show d.fixed = none from hfixed,
    Option.getD_none]
  by_cases htakes : d.takesReference = true
  · rcases List.eq_nil_or_concat' operands with rfl | ⟨init, t, rfl⟩
    · left
      simp
    · right
      refine ⟨init, t, rfl, htakes, ?_, ?_⟩
      · rw [if_pos htakes, List.getLast?_concat]
      · rw [if_pos htakes, List.dropLast_concat, List.getLast?_concat]
        rfl
  · left
    exact ⟨if_neg htakes, if_neg htakes⟩

theorem Readable.concat {init : List Text} {t t' : Text} (h : Readable (init ++ [t]))
    (ht' : t'.Plain) : Readable (init ++ [t']) := by
  have hinit : ∀ op ∈ init, op ∈ init ++ [t] := fun op hop => List.mem_append_left _ hop
  refine ⟨?_, ?_, ?_⟩
  · intro op hop
    rcases List.mem_append.1 hop with hop | hop
    · exact h.separable op (hinit op hop)
    · rw [List.mem_singleton.1 hop]
      exact ⟨Text.squeezed_of_isField ht'.isField, ht'.not_mem rfl⟩
  · intro op hop
    rcases List.mem_append.1 hop with hop | hop
    · exact h.unmarked op (hinit op hop)
    · rw [List.mem_singleton.1 hop]
      exact ht'.not_mem rfl
  · intro hsingle
    have hlast : (init ++ [t']).getLast? = some [] := by rw [hsingle]; rfl
    rw [List.getLast?_concat, Option.some.injEq] at hlast
    exact ht'.1 hlast

theorem Readable.mapReference (h : Readable i.operands) (hfixed : i.descriptor.fixed = none)
    (hρ : ∀ t, i.descriptor.reference? i.operands = some t → ρ t = t ∨ (ρ t).Plain) :
    Readable (i.mapReference ρ).operands := by
  rcases mapReference_cases ρ hfixed with ⟨-, hsame⟩ | ⟨init, t, hoperands, -, ht, hchanged⟩
  · rwa [hsame]
  · rw [hoperands] at h
    rw [hchanged]
    rcases hρ t ht with hkept | hplain
    · rwa [hkept]
    · exact h.concat hplain

/-- The word stays if the new reference denotes under the new labels what the old one did. -/
theorem encode_mapReference (hfixed : i.descriptor.fixed = none) {pc : Address}
    {symbols symbols' : SymbolTable}
    (h : ∀ t, i.descriptor.reference? i.operands = some t →
      i.descriptor.denote t pc symbols = i.descriptor.denote (ρ t) pc symbols') :
    (i.mapReference ρ).descriptor.encode (i.mapReference ρ).operands pc symbols' =
      i.descriptor.encode i.operands pc symbols := by
  rcases mapReference_cases ρ hfixed with ⟨hnone, hsame⟩ | ⟨init, t, hoperands, htakes, ht, hchanged⟩
  · rw [hsame]
    apply Descriptor.encode_eq_of_reference
    intro t ht
    rw [hnone] at ht
    cases ht
  · have hresolve : i.descriptor.resolve (init ++ [t]) pc symbols =
        i.descriptor.resolve (init ++ [ρ t]) pc symbols' := by
      apply Descriptor.resolve_concat_congr init
      · intro hnot
        rw [htakes] at hnot
        cases hnot
      · exact fun _ => h t ht
    rw [hchanged, Descriptor.encode_of_written hfixed, Descriptor.encode_of_written hfixed,
      hoperands, hresolve]

end Instruction

namespace Line

structure Structured (l : Line) : Prop where
  label : ∀ name ∈ l.label, Statement.isLabel name = true
  descriptor : ∀ i ∈ l.instruction, i.descriptor ∈ Descriptor.table
  unfixed : ∀ i ∈ l.instruction, i.descriptor.fixed = none
  operands : ∀ i ∈ l.instruction, ∃ raw label d, parse raw = .ok ⟨label, some ⟨d, i.operands⟩⟩

theorem Structured.written {l : Line} (h : l.Structured) : l.Written where
  label := h.label
  descriptor := h.descriptor
  operands i hi := by
    obtain ⟨raw, label, d, hparse⟩ := h.operands i hi
    exact readable_of_parse hparse

def labels (lines : List Line) : List Text := lines.filterMap Line.label

def renamed (names : List Text) (r : Text → Text) (t : Text) : Text :=
  if t ∈ names then r t else t

def relabel (names : List Text) (r : Text → Text) (l : Line) : Line :=
  ⟨l.label.map r, l.instruction.map (Instruction.mapReference (renamed names r))⟩

/-- New names for the labels of a program that cannot be mistaken for anything else in it. -/
structure Relabelling (lines : List Line) (r : Text → Text) : Prop where
  injective : ∀ a ∈ labels lines, ∀ b ∈ labels lines, r a = r b → a = b
  legal : ∀ a ∈ labels lines, Statement.isLabel (r a) = true
  /-- What was no label is none of the new ones. -/
  separate : ∀ l ∈ lines, ∀ i ∈ l.instruction, ∀ t ∈ i.descriptor.reference? i.operands,
    t ∉ labels lines → ∀ a ∈ labels lines, r a ≠ t

section Relabel

variable {lines : List Line} {r : Text → Text} {l : Line}

theorem Structured.relabel (h : l.Structured) (hr : Relabelling lines r) (hl : l ∈ lines) :
    (l.relabel (labels lines) r).Written where
  label := by
    intro name hname
    obtain ⟨a, ha, rfl⟩ := Option.map_eq_some_iff.1 hname
    exact hr.legal a (List.mem_filterMap.2 ⟨l, hl, ha⟩)
  descriptor := by
    intro i' hi'
    obtain ⟨i, hi, rfl⟩ := Option.map_eq_some_iff.1 hi'
    rcases i.mapReference_cases (renamed (labels lines) r) (h.unfixed i hi) with
      ⟨-, hsame⟩ | ⟨init, t, -, -, -, hchanged⟩
    · rw [hsame]
      exact h.descriptor i hi
    · rw [hchanged]
      exact h.descriptor i hi
  operands := by
    intro i' hi'
    obtain ⟨i, hi, rfl⟩ := Option.map_eq_some_iff.1 hi'
    apply (h.written.operands i hi).mapReference (h.unfixed i hi)
    intro t _
    by_cases ht : t ∈ labels lines
    · rw [renamed, if_pos ht]
      exact .inr (Statement.plain_of_isLabel (hr.legal t ht))
    · rw [renamed, if_neg ht]
      exact .inl rfl

end Relabel

/-- The statement on a line, as far as the survey looks at it. -/
theorem ofLine_of_parse {raw : Text} {l : Line} (h : parse raw = .ok l) :
    ∃ statement, Statement.ofLine raw = .ok statement ∧ statement.label = l.label ∧
      (statement.body = [] ↔ l.instruction = none) := by
  obtain ⟨statement, hstatement, hlabel, -⟩ := parse_eq_ok.1 h
  have hinstruction := isInstruction_of_parse h
  rw [isInstruction_of_ok hstatement] at hinstruction
  refine ⟨statement, hstatement, hlabel.symm, ?_⟩
  rw [← Option.isNone_iff_eq_none, ← List.isEmpty_iff, ← Option.not_isSome, ← hinstruction]
  simp

end Line

namespace Survey

/-- The labels of the second survey are those of the first under their new names. -/
theorem Renamed.get?_symbols {ρ : Text → Text} {Known : Text → Prop} {s t : Survey}
    (h : Renamed ρ Known s t) (hs : (s.definitions.map Definition.name).Nodup)
    (ht : (t.definitions.map Definition.name).Nodup) {name : Text} {address : Address} :
    t.symbols.get? name = some address ↔
      ∃ a, ρ a = name ∧ s.symbols.get? a = some address := by
  rw [Survey.get?_symbols ht, h.mem_iff]
  constructor
  · rintro ⟨d, hd, rfl, rfl⟩
    exact ⟨d.name, rfl, (Survey.get?_symbols hs).2 ⟨d, hd, rfl, rfl⟩⟩
  · rintro ⟨a, rfl, ha⟩
    obtain ⟨d, hd, rfl, rfl⟩ := (Survey.get?_symbols hs).1 ha
    exact ⟨d, hd, rfl, rfl⟩

/-- Every label on the lines has an address. -/
theorem After.exists_address {s : Survey} {lines : List Text} (h : s.After lines) {raw name : Text}
    (hraw : raw ∈ lines) (hlabel : Line.labelOf raw = some name) :
    ∃ address, s.symbols.get? name = some address := by
  obtain ⟨i, hi⟩ := List.mem_iff_getElem?.1 hraw
  have hat : Program.labelAt lines i = some name := by
    rw [Program.labelAt, hi]
    exact hlabel
  exact ⟨_, h.get?_symbols.2 ⟨i, hat, rfl⟩⟩

end Survey

namespace Program

variable {lines : List Line} {r : Text → Text}

def WrittenTwice (lines : List Line) (r : Text → Text) (raw raw' : Text) : Prop :=
  ∃ l ∈ lines, raw = l.render ∧ raw' = (l.relabel (Line.labels lines) r).render

theorem statement_relabelled (hlines : ∀ l ∈ lines, l.Structured) (hr : Line.Relabelling lines r)
    {raw raw' : Text} (h : WrittenTwice lines r raw raw') :
    Related (fun _ _ => True) (Survey.StatementRenamed r (· ∈ Line.labels lines))
      (Statement.ofLine raw) (Statement.ofLine raw') := by
  obtain ⟨l, hl, rfl, rfl⟩ := h
  obtain ⟨a, ha, halabel, habody⟩ := Line.ofLine_of_parse (hlines l hl).written.parse_render
  obtain ⟨b, hb, hblabel, hbbody⟩ :=
    Line.ofLine_of_parse ((hlines l hl).relabel hr hl).parse_render
  rw [ha, hb]
  refine .ok ⟨?_, ?_, ?_⟩
  · rw [hblabel, halabel]
    rfl
  · rw [habody, hbbody]
    exact Option.map_eq_none_iff
  · intro name hname
    exact List.mem_filterMap.2 ⟨l, hl, halabel.symm.trans hname⟩

structure TableRenamed (lines : List Line) (r : Text → Text) (symbols symbols' : SymbolTable) :
    Prop where
  defined : ∀ a, a ∈ Line.labels lines ↔ ∃ address, symbols.get? a = some address
  entries : ∀ name address, symbols'.get? name = some address ↔
    ∃ a, r a = name ∧ symbols.get? a = some address

theorem tableRenamed_of_survey (hlines : ∀ l ∈ lines, l.Structured) {s t : Survey}
    {source' : List Text} (hs : s.After (lines.map Line.render)) (ht : t.After source')
    (hst : Survey.Renamed r (· ∈ Line.labels lines) s t) :
    TableRenamed lines r s.symbols t.symbols where
  defined a := by
    constructor
    · intro ha
      obtain ⟨l, hl, hlabel⟩ := List.mem_filterMap.1 ha
      obtain ⟨statement, hstatement, hsame, -⟩ :=
        Line.ofLine_of_parse (hlines l hl).written.parse_render
      apply hs.exists_address (List.mem_map_of_mem hl)
      rw [Line.labelOf_of_ok hstatement, hsame, hlabel]
    · rintro ⟨address, haddress⟩
      obtain ⟨d, hd, rfl, -⟩ := (Survey.get?_symbols hs.distinct).1 haddress
      exact hst.known d hd
  entries _ _ := hst.get?_symbols hs.distinct ht.distinct

/-- An operand denotes under the new labels what it denoted under the old ones. -/
theorem TableRenamed.denote_renamed {symbols symbols' : SymbolTable}
    (h : TableRenamed lines r symbols symbols') (hr : Line.Relabelling lines r) {d : Descriptor}
    {token : Text} (htrim : token.trim = token)
    (hseparate : token ∉ Line.labels lines → ∀ a ∈ Line.labels lines, r a ≠ token) (pc : Address) :
    d.denote token pc symbols =
      d.denote (Line.renamed (Line.labels lines) r token) pc symbols' := by
  unfold Line.renamed
  by_cases htoken : token ∈ Line.labels lines
  · obtain ⟨address, haddress⟩ := (h.defined token).1 htoken
    have hplain := Statement.plain_of_isLabel (hr.legal token htoken)
    rw [if_pos htoken]
    apply Descriptor.denote_label htrim hplain.trim_eq haddress
    exact (h.entries (r token) address).2 ⟨token, rfl, haddress⟩
  · have hold : symbols.get? token = none := by
      cases hget : symbols.get? token with
      | none => rfl
      | some address => exact absurd ((h.defined token).2 ⟨address, hget⟩) htoken
    have hnew : symbols'.get? token = none := by
      cases hget : symbols'.get? token with
      | none => rfl
      | some address =>
        obtain ⟨a, ha, haddress⟩ := (h.entries token address).1 hget
        exact absurd ha (hseparate htoken a ((h.defined a).2 ⟨address, haddress⟩))
    rw [if_neg htoken]
    exact Descriptor.denote_congr htrim (hold.trans hnew.symm)

theorem word?_relabelled (hlines : ∀ l ∈ lines, l.Structured) (hr : Line.Relabelling lines r)
    {symbols symbols' : SymbolTable} (h : TableRenamed lines r symbols symbols') {l : Line}
    (hl : l ∈ lines) (pc : Address) :
    (l.relabel (Line.labels lines) r).word? pc symbols' = l.word? pc symbols := by
  unfold Line.word? Line.relabel
  rw [Option.map_map]
  cases hinstruction : l.instruction with
  | none => rfl
  | some i =>
    have hfixed := (hlines l hl).unfixed i hinstruction
    apply congrArg some
    apply Instruction.encode_mapReference hfixed
    intro token htoken
    have hlast := (Descriptor.reference?_eq_some.1 htoken).2
    rw [hfixed, Option.getD_none] at hlast
    have hreadable := (hlines l hl).written.operands i hinstruction
    apply h.denote_renamed hr
    · exact (hreadable.separable token (List.mem_of_getLast? hlast)).1.trim_eq
    · exact hr.separate l hl i hinstruction token htoken

theorem assemble_relabelled_related (hlines : ∀ l ∈ lines, l.Structured)
    (hr : Line.Relabelling lines r) :
    Related (Unlocated fun _ _ => True)
      (fun p p' => p'.words = p.words ∧ ∀ name address, p'.symbols.get? name = some address ↔
        ∃ a, r a = name ∧ p.symbols.get? a = some address)
      (assemble (lines.map Line.render))
      (assemble (lines.map fun l => (l.relabel (Line.labels lines) r).render)) := by
  have haligned : Aligned Line.Vacant (WrittenTwice lines r) (lines.map Line.render)
      (lines.map fun l => (l.relabel (Line.labels lines) r).render) :=
    Aligned.of_map fun l hl => ⟨l, hl, rfl, rfl⟩
  have hsurvey := survey_related haligned
    (fun a b ha hb => hr.injective a ha b hb) (fun _ _ _ => trivial)
    fun _ _ => statement_relabelled hlines hr
  apply hsurvey.bind
  intro s t hs ht hst
  have htable := tableRenamed_of_survey hlines (survey_after hs) (survey_after ht) hst
  have hemit : Related (Unlocated fun _ _ => True) Emission.Alike
      (emit s.symbols (lines.map Line.render))
      (emit t.symbols (lines.map fun l => (l.relabel (Line.labels lines) r).render)) := by
    apply emit_related haligned fun _ => trivial
    rintro raw raw' ⟨l, hl, rfl, rfl⟩
    rw [(hlines l hl).written.parse_render, ((hlines l hl).relabel hr hl).parse_render]
    exact .ok (word?_relabelled hlines hr htable hl)
  apply hemit.bind
  intro e e' _ _ he
  exact .ok ⟨congrArg List.reverse he.words, htable.entries⟩

/-- A program and the same program with other names for its labels are assembled alike: both or
none succeed, to the same words and to the same addresses under the new names. -/
theorem assemble_relabelled (lines : List Line) (r : Text → Text)
    (hlines : ∀ l ∈ lines, l.Structured) (hr : Line.Relabelling lines r) :
    let source := lines.map Line.render
    let source' := (lines.map (Line.relabel (Line.labels lines) r)).map Line.render
    ((∃ p, assemble source = .ok p) ↔ ∃ p', assemble source' = .ok p') ∧
    ∀ p p', assemble source = .ok p → assemble source' = .ok p' →
      p'.words = p.words ∧
      ∀ name address, p'.symbols.get? name = some address ↔
        ∃ a, r a = name ∧ p.symbols.get? a = some address := by
  intro source source'
  have hsource' : source' = lines.map fun l => (l.relabel (Line.labels lines) r).render :=
    List.map_map
  have hrelated := assemble_relabelled_related hlines hr
  rw [← hsource'] at hrelated
  exact ⟨hrelated.ok_iff, fun p p' => hrelated.rel_of_ok⟩

/-- Two labels change their names, beside a literal target and an immediate that is a label. -/
theorem assemble_relabelled_swap :
    let lines := (["loop: addi x1, x1, loop", "bne x1, x2, loop", "jal x0, end", "beq x1, x0, 8",
      "end:"].map ofString).filterMap fun raw => (Line.parse raw).toOption
    let r := fun t => if t = ofString "loop" then ofString "end" else ofString "loop"
    (∀ l ∈ lines, l.Structured) ∧ Line.Relabelling lines r ∧
    ∃ p p', assemble (lines.map Line.render) = .ok p ∧
      assemble ((lines.map (Line.relabel (Line.labels lines) r)).map Line.render) = .ok p' ∧
      p'.words = p.words ∧ p.symbols.get? (ofString "end") = some 16 ∧
      p'.symbols.get? (ofString "loop") = some 16 := by
  intro lines r
  have hlines : ∀ l ∈ lines, l.Structured := by
    intro l hl
    have hlabel : ∀ l ∈ lines, ∀ name ∈ l.label, Statement.isLabel name = true := by decide
    have hdescriptor : ∀ l ∈ lines, ∀ i ∈ l.instruction,
        i.descriptor ∈ Descriptor.table ∧ i.descriptor.fixed = none := by decide
    refine ⟨hlabel l hl, fun i hi => (hdescriptor l hl i hi).1,
      fun i hi => (hdescriptor l hl i hi).2, fun i hi => ?_⟩
    obtain ⟨raw, -, hparse⟩ := List.mem_filterMap.1 hl
    obtain ⟨label, instruction⟩ := l
    cases hi
    exact ⟨raw, label, i.descriptor, toOption_eq_some.1 hparse⟩
  have hr : Line.Relabelling lines r := ⟨by decide, by decide, by decide⟩
  obtain ⟨p, hp⟩ := exists_eq_ok (x := assemble (lines.map Line.render)) (by decide)
  obtain ⟨hboth, hsame⟩ := assemble_relabelled lines r hlines hr
  obtain ⟨p', hp'⟩ := hboth.1 ⟨p, hp⟩
  obtain ⟨hwords, hsymbols⟩ := hsame p p' hp hp'
  have hend : ∀ p ∈ (assemble (lines.map Line.render)).toOption,
      p.symbols.get? (ofString "end") = some 16 := by decide
  have haddress := hend p (toOption_eq_some.2 hp)
  refine ⟨hlines, hr, p, p', hp, hp', hwords, haddress, ?_⟩
  exact (hsymbols _ _).2 ⟨ofString "end", by decide, haddress⟩

end Program

end Rv32i
