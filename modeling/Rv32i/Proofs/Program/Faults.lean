import Mathlib.Data.Nat.Find
import Rv32i.Proofs.Program.Specification

/-!
# Which fault is reported

A fault belongs to a line and is either one of its label or one of its instruction. Faults of labels
come before all others, wherever they stand. Among those of one sort the first line with a fault is
reported, with its number and its text. Without a fault the program assembles.
-/

set_option autoImplicit false

namespace Rv32i

open Text (ofString)

namespace Program

/-- What is wrong with the label on the line at index `i`: it is malformed, or a line before defines
it already. -/
inductive LabelFault (lines : List Text) (i : Nat) : Fault → Prop where
  | malformed {raw label : Text} (hline : lines[i]? = some raw)
      (hlabel : Statement.ofLine raw = .error (.malformedLabel label)) :
      LabelFault lines i (.malformedLabel label)
  | repeated {name : Text} {j : Nat} (hj : j < i) (hearlier : labelAt lines j = some name)
      (hagain : labelAt lines i = some name) : LabelFault lines i (.duplicateLabel name (j + 1))

/-- What is wrong with the instruction on the line at index `i`: it is not one, or it cannot be
encoded at its address under the given labels. -/
inductive InstructionFault (symbols : SymbolTable) (lines : List Text) (i : Nat) : Fault → Prop where
  | unread {raw : Text} {fault : Fault} (hline : lines[i]? = some raw)
      (hparse : Line.parse raw = .error fault) : InstructionFault symbols lines i fault
  | unencoded {raw : Text} {label : Option Text} {d : Descriptor} {operands : List Text}
      {fault : Fault} (hline : lines[i]? = some raw)
      (hparse : Line.parse raw = .ok ⟨label, some ⟨d, operands⟩⟩)
      (hencode : d.encode operands (wordAddress (instructionsBefore lines i)) symbols =
        .error fault) : InstructionFault symbols lines i fault

def LabelTable (lines : List Text) (symbols : SymbolTable) : Prop :=
  ∀ name address, symbols.get? name = some address ↔
    ∃ i, labelAt lines i = some name ∧ address = wordAddress (instructionsBefore lines i)

def LocatedAt (HasFault : Nat → Fault → Prop) (lines : List Text) (i : Nat) (e : LocatedFault) :
    Prop :=
  ∃ raw, lines[i]? = some raw ∧ HasFault i e.fault ∧ e.line = i + 1 ∧ e.source = raw.trim

def FirstFault (HasFault : Nat → Fault → Prop) (lines : List Text) (e : LocatedFault) : Prop :=
  ∃ i, LocatedAt HasFault lines i e ∧ ∀ j < i, ∀ fault, ¬ HasFault j fault

section First

variable {HasFault : Nat → Fault → Prop} {lines : List Text}

theorem exists_locatedAt {i : Nat} {fault : Fault} (hi : i < lines.length)
    (h : HasFault i fault) : ∃ e, LocatedAt HasFault lines i e :=
  ⟨fault.locate (i + 1) lines[i], lines[i], List.getElem?_eq_getElem hi, h, rfl, rfl⟩

theorem FirstFault.exists_hasFault {e : LocatedFault} (h : FirstFault HasFault lines e) :
    ∃ i, HasFault i e.fault := by
  obtain ⟨i, ⟨raw, -, hfault, -⟩, -⟩ := h
  exact ⟨i, hfault⟩

/-- Where any line has a fault, there is a first one. -/
theorem exists_firstFault (hin : ∀ i fault, HasFault i fault → i < lines.length)
    (h : ∃ i fault, HasFault i fault) : ∃ e, FirstFault HasFault lines e := by
  classical
  obtain ⟨fault, hfault⟩ := Nat.find_spec h
  obtain ⟨e, he⟩ := exists_locatedAt (hin _ _ hfault) hfault
  exact ⟨e, Nat.find h, he, fun j hj fault' hj' => Nat.find_min h hj ⟨fault', hj'⟩⟩

/-- A pass over the lines that stops at a line exactly if this line has a fault reports the first
fault. -/
theorem foldlM_eq_error_iff_firstFault {σ : Type} {read : σ → Text → Except LocatedFault σ}
    (P : List Text → σ → Prop)
    (hok : ∀ done raw s s', P done s → read s raw = .ok s' → P (done ++ [raw]) s')
    (herror : ∀ done raw rest s e, lines = done ++ raw :: rest → P done s →
      (read s raw = .error e ↔
        ∃ fault, HasFault done.length fault ∧ fault.locate (done.length + 1) raw = e))
    {s : σ} (hstart : P [] s) {e : LocatedFault} :
    lines.foldlM read s = .error e ↔ FirstFault HasFault lines e := by
  have hlocated : ∀ done raw rest s e, lines = done ++ raw :: rest → P done s →
      (read s raw = .error e ↔ LocatedAt HasFault lines done.length e) := by
    -- The number and the text of the line are what locating the fault adds to it.
    intro done raw rest s e hl hs
    have hline : lines[done.length]? = some raw := by simp [hl]
    rw [herror done raw rest s e hl hs]
    constructor
    · rintro ⟨fault, hfault, rfl⟩
      exact ⟨raw, hline, hfault, rfl, rfl⟩
    · rintro ⟨raw', hraw', hfault, hnumber, hsource⟩
      cases hline.symm.trans hraw'
      obtain ⟨fault, number, source⟩ := e
      exact ⟨fault, hfault, by rw [Fault.locate, ← hnumber, ← hsource]⟩
  rw [foldlM_eq_error_iff P (LocatedAt HasFault lines) hok hlocated hstart]
  constructor
  · rintro ⟨i, hi, hhere, hfirst⟩
    refine ⟨i, hhere, fun j hj fault hfault => ?_⟩
    obtain ⟨e', he'⟩ := exists_locatedAt (Nat.lt_trans hj hi) hfault
    exact hfirst j hj e' he'
  · rintro ⟨i, hhere, hfirst⟩
    have hi : i < lines.length := by
      obtain ⟨raw, hline, -⟩ := hhere
      exact (List.getElem?_eq_some_iff.1 hline).1
    refine ⟨i, hi, hhere, fun j hj e' he' => ?_⟩
    obtain ⟨_, -, hfault, -⟩ := he'
    exact hfirst j hj _ hfault

theorem ok_iff_of_firstFault {σ : Type} {x : Except LocatedFault σ}
    (hin : ∀ i fault, HasFault i fault → i < lines.length)
    (h : ∀ e, x = .error e ↔ FirstFault HasFault lines e) :
    (∃ s, x = .ok s) ↔ ∀ i fault, ¬ HasFault i fault := by
  constructor
  · rintro ⟨s, hs⟩ i fault hfault
    obtain ⟨e, he⟩ := exists_firstFault hin ⟨i, fault, hfault⟩
    cases hs.symm.trans ((h e).2 he)
  · intro hnone
    cases hx : x with
    | ok s => exact ⟨s, rfl⟩
    | error e =>
      obtain ⟨i, hfault⟩ := ((h e).1 hx).exists_hasFault
      exact absurd hfault (hnone i _)

/-- The place of a fault is that of a line with some text on it. -/
theorem FirstFault.place (hsource : ∀ i fault raw, HasFault i fault → lines[i]? = some raw →
      raw.trim ≠ []) {e : LocatedFault} (h : FirstFault HasFault lines e) :
    1 ≤ e.line ∧ e.line ≤ lines.length ∧
      ∃ raw, lines[e.line - 1]? = some raw ∧ e.source = raw.trim ∧ e.source ≠ [] := by
  obtain ⟨i, ⟨raw, hraw, hfault, hline, htext⟩, -⟩ := h
  have hi := (List.getElem?_eq_some_iff.1 hraw).1
  refine ⟨by omega, by omega, raw, ?_, htext, ?_⟩
  · rw [hline, Nat.add_sub_cancel, hraw]
  · rw [htext]
    exact hsource i _ raw hfault hraw

end First

section Passes

variable {lines : List Text} {e : LocatedFault}

theorem LabelFault.lt {i : Nat} {fault : Fault} (h : LabelFault lines i fault) :
    i < lines.length := by
  cases h with
  | malformed hline _ => exact (List.getElem?_eq_some_iff.1 hline).1
  | repeated _ _ hagain => exact lt_of_labelAt hagain

theorem InstructionFault.lt {symbols : SymbolTable} {i : Nat} {fault : Fault}
    (h : InstructionFault symbols lines i fault) : i < lines.length := by
  cases h with
  | unread hline _ => exact (List.getElem?_eq_some_iff.1 hline).1
  | unencoded hline _ _ => exact (List.getElem?_eq_some_iff.1 hline).1

/-- A line of blanks alone has no fault of its label. -/
theorem LabelFault.source_ne_nil {i : Nat} {fault : Fault} {raw : Text}
    (h : LabelFault lines i fault) (hraw : lines[i]? = some raw) : raw.trim ≠ [] := by
  intro hnil
  have hblank := Statement.ofLine_of_blank hnil
  cases h with
  | malformed hline hlabel =>
    cases hraw.symm.trans hline
    cases hblank.symm.trans hlabel
  | repeated _ _ hagain =>
    rw [labelAt, hraw, Option.bind_some, Line.labelOf_of_ok hblank] at hagain
    cases hagain

theorem InstructionFault.source_ne_nil {symbols : SymbolTable} {i : Nat} {fault : Fault}
    {raw : Text} (h : InstructionFault symbols lines i fault) (hraw : lines[i]? = some raw) :
    raw.trim ≠ [] := by
  intro hnil
  have hblank := Statement.ofLine_of_blank hnil
  have hempty := Line.parse_of_not_isInstruction hblank (Line.isInstruction_of_ok hblank)
  cases h with
  | unread hline hparse =>
    cases hraw.symm.trans hline
    cases hempty.symm.trans hparse
  | unencoded hline hparse _ =>
    cases hraw.symm.trans hline
    cases hempty.symm.trans hparse

/-- Where all labels are well formed, no fault of an instruction is about a label. -/
theorem InstructionFault.not_label {symbols : SymbolTable}
    (hstatements : ∀ raw ∈ lines, ∃ statement, Statement.ofLine raw = .ok statement)
    {i : Nat} {fault : Fault} (h : InstructionFault symbols lines i fault) :
    fault.kind ≠ .duplicateLabel ∧ ∀ label, fault ≠ .malformedLabel label := by
  cases h with
  | unread hline hparse =>
    obtain ⟨statement, hstatement⟩ := hstatements _ (List.mem_of_getElem? hline)
    rcases Line.parse_eq_error hparse with hmalformed | ⟨mnemonic, rfl⟩
    · cases hstatement.symm.trans hmalformed
    · exact ⟨by simp [Fault.kind], nofun⟩
  | @unencoded _ _ d operands _ _ hparse hencode =>
    have hassigned : ∀ d ∈ Descriptor.table, d.format ≠ .unassigned := by decide
    obtain ⟨hlabel, hduplicate⟩ :=
      BlamesOperands.encode (hassigned d (Line.mem_table_of_parse hparse)) _ _ _ _ hencode
    refine ⟨hduplicate, ?_⟩
    rintro label rfl
    exact hlabel rfl

end Passes

end Program

namespace Survey

open Program

variable {s : Survey} {done : List Text} {raw : Text} {fault : Fault}

/-- A label is refused exactly if it stands on a line before, and the line is named. -/
theorem After.define_eq_error (h : s.After done) {label : Option Text} :
    s.define label = .error fault ↔ ∃ name j, label = some name ∧ labelAt done j = some name ∧
      fault = .duplicateLabel name (j + 1) := by
  unfold define
  cases label with
  | none => simp
  | some name =>
    dsimp only
    split
    · next earlier hfind =>
      have hname : earlier.name = name := by simpa using List.find?_some hfind
      obtain ⟨i, hi, hline, -⟩ := (h.definitions earlier).1 (List.mem_of_find?_eq_some hfind)
      rw [hname] at hi
      rw [hline]
      constructor
      · intro hfault
        cases hfault
        exact ⟨name, i, rfl, hi, rfl⟩
      · rintro ⟨name', j, hname', hj, rfl⟩
        cases hname'
        rw [h.label_unique hi hj]
    · next hfind =>
      constructor
      · intro hfault
        cases hfault
      · rintro ⟨name', j, hname', hj, -⟩
        cases hname'
        have hd := (h.definitions ⟨name, j + 1, _⟩).2 ⟨j, hj, rfl, rfl⟩
        exact absurd (List.find?_eq_none.1 hfind _ hd) (by simp)

theorem After.step_eq_error (h : s.After done) (rest : List Text) :
    s.step raw = .error fault ↔ LabelFault (done ++ raw :: rest) done.length fault := by
  have hline : (done ++ raw :: rest)[done.length]? = some raw := by simp
  have hlabel : labelAt (done ++ raw :: rest) done.length = Line.labelOf raw := by
    rw [labelAt, hline, Option.bind_some]
  have hearlier {j : Nat} (hj : j < done.length) :
      labelAt (done ++ raw :: rest) j = labelAt done j := labelAt_append done hj _
  rw [Survey.step, bind_eq_error]
  constructor
  · rintro (hmalformed | ⟨statement, hstatement, hdefine⟩)
    · obtain ⟨label, rfl⟩ := Statement.ofLine_eq_error hmalformed
      exact .malformed hline hmalformed
    · rcases bind_eq_error.1 hdefine with hrepeated | ⟨_, -, hpure⟩
      · obtain ⟨name, j, hname, hj, rfl⟩ := h.define_eq_error.1 hrepeated
        have hlt := lt_of_labelAt hj
        apply LabelFault.repeated hlt
        · rw [hearlier hlt, hj]
        · rw [hlabel, Line.labelOf_of_ok hstatement, hname]
      · cases hpure
  · rintro (⟨hraw, hmalformed⟩ | ⟨hj, hfirst, hagain⟩)
    · cases hline.symm.trans hraw
      exact .inl hmalformed
    · rw [hearlier hj] at hfirst
      rw [hlabel] at hagain
      cases hstatement : Statement.ofLine raw with
      | error fault => simp [Line.labelOf, hstatement] at hagain
      | ok statement =>
        rw [Line.labelOf_of_ok hstatement] at hagain
        have hrepeated := h.define_eq_error.2 ⟨_, _, hagain, hfirst, rfl⟩
        exact .inr ⟨statement, rfl, bind_eq_error.2 (.inl hrepeated)⟩

end Survey

namespace Emission

open Program

variable {symbols : SymbolTable} {e : Emission} {done : List Text} {raw : Text} {fault : Fault}

/-- All that can go wrong in a step of the emission. -/
theorem step_eq_error : e.step symbols raw = .error fault ↔
    Line.parse raw = .error fault ∨
    ∃ label d operands, Line.parse raw = .ok ⟨label, some ⟨d, operands⟩⟩ ∧
      d.encode operands e.pc symbols = .error fault := by
  rw [step, bind_eq_error]
  constructor
  · rintro (hparse | ⟨⟨label, instruction⟩, hparse, hrest⟩)
    · exact .inl hparse
    · cases instruction with
      | none => cases hrest
      | some instruction =>
        rcases bind_eq_error.1 hrest with hencode | ⟨_, -, hpure⟩
        · exact .inr ⟨label, instruction.descriptor, instruction.operands, hparse, hencode⟩
        · cases hpure
  · rintro (hparse | ⟨label, d, operands, hparse, hencode⟩)
    · exact .inl hparse
    · exact .inr ⟨_, hparse, bind_eq_error.2 (.inl hencode)⟩

theorem After.step_eq_error (h : After symbols e done) (rest : List Text) :
    e.step symbols raw = .error fault ↔
      InstructionFault symbols (done ++ raw :: rest) done.length fault := by
  have hline : (done ++ raw :: rest)[done.length]? = some raw := by simp
  have hpc : e.pc = wordAddress (instructionsBefore (done ++ raw :: rest) done.length) := by
    rw [h.pc, instructionsBefore_append_length]
  rw [Emission.step_eq_error, hpc]
  constructor
  · rintro (hparse | ⟨label, d, operands, hparse, hencode⟩)
    · exact .unread hline hparse
    · exact .unencoded hline hparse hencode
  · rintro (⟨hraw, hparse⟩ | ⟨hraw, hparse, hencode⟩)
    · cases hline.symm.trans hraw
      exact .inl hparse
    · cases hline.symm.trans hraw
      exact .inr ⟨_, _, _, hparse, hencode⟩

theorem line_step {e' : Emission} (h : e.step symbols raw = .ok e') : e'.line = e.line + 1 := by
  obtain ⟨_, -, rfl⟩ | ⟨_, _, _, _, -, -, rfl⟩ := step_eq_ok.1 h
  · rfl
  · rfl

end Emission

namespace Program

variable {lines : List Text} {e : LocatedFault}

theorem survey_eq_error : survey lines = .error e ↔ FirstFault (LabelFault lines) lines e := by
  apply foldlM_eq_error_iff_firstFault (fun done (s : Survey) => s.After done)
  · intro done raw s s' hs hread
    exact hs.step (mapError_eq_ok.1 hread)
  · rintro done raw rest s e rfl hs
    rw [Survey.read, mapError_eq_error, hs.line]
    simp only [hs.step_eq_error rest]
  · exact Survey.after_start

theorem emit_eq_error {symbols : SymbolTable} :
    emit symbols lines = .error e ↔ FirstFault (InstructionFault symbols lines) lines e := by
  apply foldlM_eq_error_iff_firstFault
    (fun done (e : Emission) => Emission.After symbols e done ∧ e.line = done.length)
  · rintro done raw e e' ⟨he, hline⟩ hread
    have hstep := mapError_eq_ok.1 hread
    refine ⟨he.step hstep, ?_⟩
    rw [Emission.line_step hstep, hline, List.length_append, List.length_singleton]
  · rintro done raw rest e located rfl ⟨he, hline⟩
    rw [Emission.read, mapError_eq_error, hline]
    simp only [he.step_eq_error rest]
  · exact ⟨Emission.after_start, rfl⟩

theorem survey_ok_iff :
    (∃ s, survey lines = .ok s) ↔ ∀ i fault, ¬ LabelFault lines i fault :=
  ok_iff_of_firstFault (fun _ _ h => h.lt) fun _ => survey_eq_error

theorem emit_ok_iff {symbols : SymbolTable} :
    (∃ e, emit symbols lines = .ok e) ↔ ∀ i fault, ¬ InstructionFault symbols lines i fault :=
  ok_iff_of_firstFault (fun _ _ h => h.lt) fun _ => emit_eq_error

theorem assemble_eq_error : assemble lines = .error e ↔ survey lines = .error e ∨
    ∃ s, survey lines = .ok s ∧ emit s.symbols lines = .error e := by
  rw [assemble, bind_eq_error]
  simp only [bind_eq_error, pure, Except.pure, reduceCtorEq, and_false, exists_false, or_false]

/-- A label that is refused is either malformed or named together with the line that has it. -/
theorem FirstFault.label_kind (h : FirstFault (LabelFault lines) lines e) :
    (∃ label, e.fault = .malformedLabel label) ∧ e.diagnostic.kind = .syntaxError ∨
    ∃ name j, j + 1 < e.line ∧ labelAt lines j = some name ∧
      e.diagnostic.kind = .duplicateLabel ∧ e.diagnostic.detail =
        name.quoted ++ ofString " already defined on line " ++ Numeral.decimal (j + 1) := by
  obtain ⟨i, ⟨raw, -, hfault, hline, -⟩, -⟩ := h
  obtain ⟨fault, number, source⟩ := e
  cases hfault with
  | malformed _ _ => exact .inl ⟨⟨_, rfl⟩, rfl⟩
  | @repeated name j hj hearlier _ =>
    have hlt : j + 1 < number := by
      rw [show number = i + 1 from hline]
      omega
    exact .inr ⟨name, j, hlt, hearlier, rfl, rfl⟩

/-- A run reports the first fault of a label, or else the first fault of an instruction under all
labels, and succeeds if there is neither. The report names the line and quotes it. -/
theorem assemble_reports_first_fault (lines : List Text) :
    ((∃ i fault, LabelFault lines i fault) →
      ∃ e, assemble lines = .error e ∧ FirstFault (LabelFault lines) lines e ∧
        ((∃ label, e.fault = .malformedLabel label) ∧ e.diagnostic.kind = .syntaxError ∨
          ∃ name j, j + 1 < e.line ∧ labelAt lines j = some name ∧
            e.diagnostic.kind = .duplicateLabel ∧ e.diagnostic.detail =
              name.quoted ++ ofString " already defined on line " ++ Numeral.decimal (j + 1))) ∧
    ((∀ i fault, ¬ LabelFault lines i fault) →
      ∃ symbols, LabelTable lines symbols ∧
        ((∃ i fault, InstructionFault symbols lines i fault) →
          ∃ e, assemble lines = .error e ∧
            FirstFault (InstructionFault symbols lines) lines e ∧
            e.fault.kind ≠ .duplicateLabel ∧ ∀ label, e.fault ≠ .malformedLabel label) ∧
        ((∀ i fault, ¬ InstructionFault symbols lines i fault) →
          ∃ p, assemble lines = .ok p ∧ p.symbols = symbols)) ∧
    ∀ e, assemble lines = .error e →
      1 ≤ e.line ∧ e.line ≤ lines.length ∧
        ∃ raw, lines[e.line - 1]? = some raw ∧ e.source = raw.trim ∧ e.source ≠ [] := by
  refine ⟨fun hfault => ?_, fun hnone => ?_, fun e he => ?_⟩
  · obtain ⟨e, he⟩ := exists_firstFault (fun _ _ h => h.lt) hfault
    exact ⟨e, assemble_eq_error.2 (.inl (survey_eq_error.2 he)), he, he.label_kind⟩
  · obtain ⟨s, hs⟩ := survey_ok_iff.2 hnone
    have hafter := survey_after hs
    refine ⟨s.symbols, fun _ _ => hafter.get?_symbols, fun hfault => ?_, fun hfine => ?_⟩
    · obtain ⟨e, he⟩ := exists_firstFault (fun _ _ h => h.lt) hfault
      obtain ⟨i, hinstruction⟩ := he.exists_hasFault
      exact ⟨e, assemble_eq_error.2 (.inr ⟨s, hs, emit_eq_error.2 he⟩), he,
        hinstruction.not_label hafter.statements⟩
    · obtain ⟨emission, hemission⟩ := emit_ok_iff.2 hfine
      exact ⟨_, assemble_eq_ok.2 ⟨s, emission, hs, hemission, rfl⟩, rfl⟩
  · rcases assemble_eq_error.1 he with hsurvey | ⟨s, -, hemit⟩
    · exact (survey_eq_error.1 hsurvey).place fun _ _ _ => LabelFault.source_ne_nil
    · exact (emit_eq_error.1 hemit).place fun _ _ _ => InstructionFault.source_ne_nil

/-- A label repeated on the last line is reported although the first line cannot be encoded; without
the repetition the first line is reported. -/
theorem assemble_reports_first_fault_at :
    (let lines := ["lw x1, x2", "a: nop", "b:", "a: nop"].map ofString
      ∃ e, assemble lines = .error e ∧ FirstFault (LabelFault lines) lines e) ∧
    let lines := ["lw x1, x2", "a: nop", "b:", "c: nop"].map ofString
    ∃ e symbols, assemble lines = .error e ∧ LabelTable lines symbols ∧
      FirstFault (InstructionFault symbols lines) lines e := by
  constructor
  · intro lines
    have hfault : LabelFault lines 3 (.duplicateLabel (ofString "a") 2) :=
      .repeated (by decide) (by decide) (by decide)
    obtain ⟨e, he, hfirst, -⟩ := (assemble_reports_first_fault lines).1 ⟨3, _, hfault⟩
    exact ⟨e, he, hfirst⟩
  · intro lines
    have hok : (survey lines).toOption.isSome = true := by decide
    have hparse : (Line.parse (ofString "lw x1, x2")).toOption =
      some ⟨none, some ⟨.load "lw" 0b010, ["x1", "x2"].map ofString⟩⟩ := by decide
    have hnone := survey_ok_iff.1 (exists_eq_ok hok)
    obtain ⟨symbols, htable, hfails, -⟩ := (assemble_reports_first_fault lines).2.1 hnone
    have hencode : (Descriptor.load "lw" 0b010).encode (["x1", "x2"].map ofString)
        (wordAddress 0) symbols = .error (.malformedMemory (ofString "x2")) := rfl
    obtain ⟨e, he, hfirst, -⟩ := hfails ⟨0, _, .unencoded rfl (toOption_eq_some.1 hparse) hencode⟩
    exact ⟨e, symbols, he, htable, hfirst⟩

end Program

end Rv32i
