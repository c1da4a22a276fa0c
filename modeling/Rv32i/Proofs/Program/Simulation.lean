import Rv32i.Proofs.Program.Emission
import Rv32i.Proofs.Simulation
import Rv32i.Proofs.Source.Fields

/-!
# Two programs in step

Two lists of lines that differ in the names of their labels, and in lines without any text, are
surveyed alike: both runs fail, or both find the same addresses under the corresponding names. Where
corresponding instructions have the same words, both are also emitted alike.
-/

set_option autoImplicit false

namespace Rv32i

/-- Nothing stands on the line before its comment. -/
def Line.Vacant (raw : Text) : Prop := raw.beforeComment.fields = []

theorem Statement.ofLine_of_vacant {raw : Text} (h : Line.Vacant raw) :
    ofLine raw = .ok ⟨none, []⟩ := by
  have hfields : ofFields raw.beforeComment.fields = .ok (none, []) := by
    rw [show raw.beforeComment.fields = [] from h, ofFields]
  obtain ⟨body, hline, hbody⟩ := ofLine_of_ofFields hfields
  have hnil : body = [] := (Line.fields_body_eq_nil_iff hline).1 hbody
  rw [hline, hnil]

def Line.word? (l : Line) (pc : Address) (symbols : SymbolTable) : Option (Except Fault Word) :=
  l.instruction.map fun i => i.descriptor.encode i.operands pc symbols

namespace Definition

def entry (d : Definition) : Text × Address := (d.name, d.address)

end Definition

namespace Survey

variable {ρ : Text → Text} {Known : Text → Prop} {s t : Survey}

structure Renamed (ρ : Text → Text) (Known : Text → Prop) (s t : Survey) : Prop where
  pc : t.pc = s.pc
  definitions : t.definitions.map Definition.entry =
    s.definitions.map fun d => (ρ d.name, d.address)
  known : ∀ d ∈ s.definitions, Known d.name

theorem renamed_start : Renamed ρ Known {} {} := ⟨rfl, rfl, nofun⟩

theorem Renamed.mem_iff (h : Renamed ρ Known s t) {name : Text} {address : Address} :
    (∃ d ∈ t.definitions, d.name = name ∧ d.address = address) ↔
      ∃ d ∈ s.definitions, ρ d.name = name ∧ d.address = address := by
  have hentry : (name, address) ∈ t.definitions.map Definition.entry ↔
      (name, address) ∈ s.definitions.map fun d => (ρ d.name, d.address) := by
    rw [h.definitions]
  simpa [Definition.entry] using hentry

/-- A label is new to both surveys or to none. -/
theorem Renamed.fresh_iff (h : Renamed ρ Known s t)
    (hρ : ∀ a b, Known a → Known b → ρ a = ρ b → a = b) {label : Option Text}
    (hlabel : ∀ name, label = some name → Known name) :
    t.Fresh (label.map ρ) ↔ s.Fresh label := by
  unfold Fresh
  constructor
  · intro hfresh name hname d hd heq
    obtain ⟨d', hd', hname', -⟩ := h.mem_iff.2 ⟨d, hd, rfl, rfl⟩
    exact hfresh (ρ name) (by rw [hname]; rfl) d' hd' (by rw [hname', heq])
  · intro hfresh name hname d' hd' heq
    obtain ⟨name', hname', rfl⟩ := Option.map_eq_some_iff.1 hname
    obtain ⟨d, hd, hsame, -⟩ := h.mem_iff.1 ⟨d', hd', heq, rfl⟩
    exact hfresh name' hname' d hd (hρ _ _ (h.known d hd) (hlabel name' hname') hsame)

theorem define_of_not_fresh {label : Option Text} (h : ¬ s.Fresh label) :
    ∃ name line, label = some name ∧ s.define label = .error (.duplicateLabel name line) := by
  cases hdefine : s.define label with
  | ok definitions => exact absurd (define_eq_ok.1 hdefine).1 h
  | error fault =>
    unfold define at hdefine
    cases label with
    | none => cases hdefine
    | some name =>
      dsimp only at hdefine
      split at hdefine
      · cases hdefine
        exact ⟨name, _, rfl, rfl⟩
      · cases hdefine

def StatementRenamed (ρ : Text → Text) (Known : Text → Prop) (a b : Statement) : Prop :=
  b.label = a.label.map ρ ∧ (b.body = [] ↔ a.body = []) ∧ ∀ name, a.label = some name → Known name

variable {E : Fault → Fault → Prop}

theorem Renamed.step (h : Renamed ρ Known s t)
    (hρ : ∀ a b, Known a → Known b → ρ a = ρ b → a = b)
    (hE : ∀ name line line', E (.duplicateLabel name line) (.duplicateLabel (ρ name) line'))
    {raw raw' : Text} (hline : Related E (StatementRenamed ρ Known) (Statement.ofLine raw)
      (Statement.ofLine raw')) :
    Related E (Renamed ρ Known) (s.step raw) (t.step raw') := by
  apply hline.bind
  intro a b _ _ ⟨hlabel, hbody, hknown⟩
  have hfresh := h.fresh_iff hρ hknown
  by_cases hnew : s.Fresh a.label
  · rw [define_eq_ok.2 ⟨hnew, rfl⟩, hlabel, define_eq_ok.2 ⟨hfresh.2 hnew, rfl⟩]
    refine .ok ⟨?_, ?_, ?_⟩
    · have hempty : b.body.isEmpty = a.body.isEmpty := by
        rw [Bool.eq_iff_iff, List.isEmpty_iff, List.isEmpty_iff, hbody]
      simp only [hempty, h.pc]
    · have hadded : (t.added (a.label.map ρ)).map Definition.entry =
          (s.added a.label).map fun d => (ρ d.name, d.address) := by
        cases a.label with
        | none => rfl
        | some name => simp [added, Definition.entry, h.pc]
      simp only [List.map_append, hadded, h.definitions]
    · intro d hd
      rcases List.mem_append.1 hd with hd | hd
      · exact hknown d.name (mem_added.1 hd).1
      · exact h.known d hd
  · obtain ⟨name, line, hname, hdefine⟩ := define_of_not_fresh hnew
    obtain ⟨name', line', hname', hdefine'⟩ := define_of_not_fresh (mt hfresh.1 hnew)
    rw [hname] at hname'
    cases hname'
    rw [hdefine, hlabel, hdefine']
    exact .error (hE name line line')

/-- A line without any text is passed over. -/
theorem read_of_vacant (s : Survey) {raw : Text} (h : Line.Vacant raw) :
    s.read raw = .ok { s with line := s.line + 1 } := by
  rw [read, mapError_eq_ok, step_eq_ok]
  exact ⟨_, Statement.ofLine_of_vacant h, nofun, rfl⟩

end Survey

namespace Emission

variable {e e' : Emission} {symbols symbols' : SymbolTable} {E : Fault → Fault → Prop}

structure Alike (e e' : Emission) : Prop where
  pc : e'.pc = e.pc
  words : e'.words = e.words

theorem Alike.step (h : Alike e e') (hE : ∀ fault, E fault fault) {raw raw' : Text}
    (hline : Related E (fun a b => ∀ pc, b.word? pc symbols' = a.word? pc symbols)
      (Line.parse raw) (Line.parse raw')) :
    Related E Alike (e.step symbols raw) (e'.step symbols' raw') := by
  apply hline.bind
  intro a b _ _ hword
  have hpc := hword e.pc
  obtain ⟨label, instruction⟩ := a
  obtain ⟨label', instruction'⟩ := b
  cases instruction with
  | none =>
    cases instruction' with
    | none => exact .ok ⟨h.pc, h.words⟩
    | some _ => cases hpc
  | some i =>
    cases instruction' with
    | none => cases hpc
    | some i' =>
      have hencode : i'.descriptor.encode i'.operands e'.pc symbols' =
          i.descriptor.encode i.operands e.pc symbols := by
        rw [h.pc]
        exact Option.some.inj hpc
      dsimp only
      rw [hencode]
      cases i.descriptor.encode i.operands e.pc symbols with
      | error fault => exact .error (hE fault)
      | ok value =>
        refine .ok ⟨?_, ?_⟩
        · simp only [h.pc]
        · simp only [h.pc, h.words]

theorem read_of_vacant (symbols : SymbolTable) (e : Emission) {raw : Text} (h : Line.Vacant raw) :
    e.read symbols raw = .ok { e with line := e.line + 1 } := by
  have hstatement := Statement.ofLine_of_vacant h
  rw [read, mapError_eq_ok, step_eq_ok]
  exact .inl ⟨none, Line.parse_of_not_isInstruction hstatement
    (Line.isInstruction_of_ok hstatement), rfl⟩

end Emission

namespace Program

variable {ρ : Text → Text} {Known : Text → Prop} {E : Fault → Fault → Prop}
variable {L : Text → Text → Prop} {lines lines' : List Text}

def Unlocated (E : Fault → Fault → Prop) (e e' : LocatedFault) : Prop := E e.fault e'.fault

theorem survey_related (h : Aligned Line.Vacant L lines lines')
    (hρ : ∀ a b, Known a → Known b → ρ a = ρ b → a = b)
    (hE : ∀ name line line', E (.duplicateLabel name line) (.duplicateLabel (ρ name) line'))
    (hL : ∀ raw raw', L raw raw' → Related E (Survey.StatementRenamed ρ Known)
      (Statement.ofLine raw) (Statement.ofLine raw')) :
    Related (Unlocated E) (Survey.Renamed ρ Known) (survey lines) (survey lines') := by
  apply foldlM_related _ _ _ h Survey.renamed_start
  · intro s t raw hst hraw
    exact ⟨_, s.read_of_vacant hraw, hst.pc, hst.definitions, hst.known⟩
  · intro s t raw hst hraw
    exact ⟨_, t.read_of_vacant hraw, hst.pc, hst.definitions, hst.known⟩
  · intro s t raw raw' hst hraw
    exact (hst.step hρ hE (hL raw raw' hraw)).mapError fun _ _ hfault => hfault

theorem emit_related {symbols symbols' : SymbolTable} (h : Aligned Line.Vacant L lines lines')
    (hE : ∀ fault, E fault fault)
    (hL : ∀ raw raw', L raw raw' → Related E
      (fun a b => ∀ pc, b.word? pc symbols' = a.word? pc symbols)
      (Line.parse raw) (Line.parse raw')) :
    Related (Unlocated E) Emission.Alike (emit symbols lines) (emit symbols' lines') := by
  apply foldlM_related _ _ _ h ⟨rfl, rfl⟩
  · intro e e' raw he hraw
    exact ⟨_, e.read_of_vacant symbols hraw, he.pc, he.words⟩
  · intro e e' raw he hraw
    exact ⟨_, e'.read_of_vacant symbols' hraw, he.pc, he.words⟩
  · intro e e' raw raw' he hraw
    exact (he.step hE (hL raw raw' hraw)).mapError fun _ _ hfault => hfault

end Program

end Rv32i
