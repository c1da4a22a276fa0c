import Mathlib.Data.List.Nodup
import Rv32i.Program
import Rv32i.Proofs.Source.Line

/-!
# What the survey finds

After some lines the survey knows each label written on them, once, with the address that follows
from the instructions before it. It ends early only at a malformed or a repeated label.
-/

set_option autoImplicit false

namespace Rv32i

namespace Program

def instructionLines (lines : List Text) : List Text := lines.filter Line.isInstruction

def instructionsBefore (lines : List Text) (i : Nat) : Nat :=
  (lines.take i).countP Line.isInstruction

def labelAt (lines : List Text) (i : Nat) : Option Text := lines[i]?.bind Line.labelOf

def wordAddress (k : Nat) : Address := BitVec.ofNat 32 (4 * k)

theorem wordAddress_succ (k : Nat) : wordAddress (k + 1) = wordAddress k + wordSize := by
  simp [wordAddress, wordSize, Nat.mul_add, BitVec.ofNat_add]

/-- The first 2³⁰ words have addresses of their own. -/
theorem toNat_wordAddress {k : Nat} (h : k < 0x40000000) : (wordAddress k).toNat = 4 * k := by
  rw [wordAddress, BitVec.toNat_ofNat]
  omega

/-- Wrapping around keeps addresses at multiples of four. -/
theorem wordAddress_aligned (k : Nat) : (wordAddress k).toNat % 4 = 0 := by
  rw [wordAddress, BitVec.toNat_ofNat]
  omega

section Append

variable (done : List Text) (raw : Text)

theorem instructionsBefore_append {i : Nat} (h : i ≤ done.length) (rest : List Text) :
    instructionsBefore (done ++ rest) i = instructionsBefore done i := by
  rw [instructionsBefore, List.take_append_of_le_length h, instructionsBefore]

theorem instructionsBefore_length :
    instructionsBefore done done.length = (instructionLines done).length := by
  rw [instructionsBefore, List.take_length, instructionLines, List.countP_eq_length_filter]

/-- Up to a line, the instructions are those on the lines before it, whatever follows. -/
theorem instructionsBefore_append_length (rest : List Text) :
    instructionsBefore (done ++ rest) done.length = (instructionLines done).length := by
  rw [instructionsBefore_append done (Nat.le_refl _), instructionsBefore_length]

theorem instructionsBefore_le (lines : List Text) (i : Nat) :
    instructionsBefore lines i ≤ (instructionLines lines).length := by
  rw [instructionsBefore, instructionLines, ← List.countP_eq_length_filter]
  exact (List.take_sublist i lines).countP_le

theorem instructionsBefore_mono (lines : List Text) {i j : Nat} (h : i ≤ j) :
    instructionsBefore lines i ≤ instructionsBefore lines j :=
  (List.take_prefix_take_left h).sublist.countP_le

theorem instructionsBefore_succ (lines : List Text) (i : Nat) :
    instructionsBefore lines (i + 1) =
      instructionsBefore lines i + if lines[i]?.any Line.isInstruction then 1 else 0 := by
  rw [instructionsBefore, List.take_add_one, List.countP_append, instructionsBefore]
  cases lines[i]? with
  | none => rfl
  | some raw => simp

/-- The line at index `j`, if it holds an instruction, is the one counted after those before it. -/
theorem getElem?_instructionLines {lines : List Text} {j : Nat} {raw : Text}
    (h : lines[j]? = some raw) (hraw : Line.isInstruction raw = true) :
    (instructionLines lines)[instructionsBefore lines j]? = some raw := by
  have hsplit : lines = lines.take j ++ raw :: lines.drop (j + 1) := by
    obtain ⟨hj, rfl⟩ := List.getElem?_eq_some_iff.1 h
    rw [List.getElem_cons_drop, List.take_append_drop]
  have hlines : instructionLines lines =
      (lines.take j).filter Line.isInstruction ++
        raw :: (lines.drop (j + 1)).filter Line.isInstruction := by
    conv_lhs => rw [hsplit]
    rw [instructionLines, List.filter_append, List.filter_cons_of_pos hraw]
  rw [hlines, instructionsBefore, List.countP_eq_length_filter,
    List.getElem?_append_right (Nat.le_refl _), Nat.sub_self, List.getElem?_cons_zero]

theorem instructionLines_concat : instructionLines (done ++ [raw]) =
    instructionLines done ++ if Line.isInstruction raw then [raw] else [] := by
  rw [instructionLines, List.filter_append, List.filter_cons, List.filter_nil, instructionLines]

theorem lt_of_labelAt {done : List Text} {i : Nat} {name : Text}
    (h : labelAt done i = some name) : i < done.length := by
  obtain ⟨raw, hraw, -⟩ := Option.bind_eq_some_iff.1 h
  exact (List.getElem?_eq_some_iff.1 hraw).1

theorem labelAt_append {i : Nat} (h : i < done.length) (rest : List Text) :
    labelAt (done ++ rest) i = labelAt done i := by
  rw [labelAt, List.getElem?_append_left h, labelAt]

theorem labelAt_concat {i : Nat} {name : Text} : labelAt (done ++ [raw]) i = some name ↔
    labelAt done i = some name ∨ i = done.length ∧ Line.labelOf raw = some name := by
  by_cases hlt : i < done.length
  · rw [labelAt_append done hlt]
    simp [Nat.ne_of_lt hlt]
  · have hnone : labelAt done i ≠ some name := fun h => hlt (lt_of_labelAt h)
    by_cases heq : i = done.length
    · simp [labelAt, heq]
    · have hover : labelAt (done ++ [raw]) i ≠ some name := fun h => by
        have hi := lt_of_labelAt h
        rw [List.length_append, List.length_singleton] at hi
        omega
      simp [hnone, heq, hover]

end Append

def Defines (lines : List Text) (d : Definition) : Prop :=
  ∃ i, labelAt lines i = some d.name ∧ d.line = i + 1 ∧
    d.address = wordAddress (instructionsBefore lines i)

theorem defines_concat {done : List Text} {raw : Text} {d : Definition} :
    Defines (done ++ [raw]) d ↔ Defines done d ∨
      Line.labelOf raw = some d.name ∧ d.line = done.length + 1 ∧
        d.address = wordAddress (instructionLines done).length := by
  constructor
  · rintro ⟨i, hlabel, hline, haddress⟩
    rcases (labelAt_concat done raw).1 hlabel with hdone | ⟨rfl, hraw⟩
    · rw [instructionsBefore_append done (Nat.le_of_lt (lt_of_labelAt hdone))] at haddress
      exact .inl ⟨i, hdone, hline, haddress⟩
    · rw [instructionsBefore_append_length] at haddress
      exact .inr ⟨hraw, hline, haddress⟩
  · rintro (⟨i, hlabel, hline, haddress⟩ | ⟨hlabel, hline, haddress⟩)
    · refine ⟨i, (labelAt_concat done raw).2 (.inl hlabel), hline, ?_⟩
      rw [instructionsBefore_append done (Nat.le_of_lt (lt_of_labelAt hlabel)), haddress]
    · refine ⟨done.length, (labelAt_concat done raw).2 (.inr ⟨rfl, hlabel⟩), hline, ?_⟩
      rw [instructionsBefore_append_length, haddress]

end Program

namespace Survey

open Program

variable {s s' : Survey} {done : List Text} {raw : Text}

def added (s : Survey) (label : Option Text) : List Definition :=
  (label.map fun name => ⟨name, s.line + 1, s.pc⟩).toList

theorem mem_added {label : Option Text} {d : Definition} : d ∈ s.added label ↔
    label = some d.name ∧ d.line = s.line + 1 ∧ d.address = s.pc := by
  cases label with
  | none => simp [added]
  | some name =>
    obtain ⟨name', line, address⟩ := d
    simp [added, eq_comm]

def Fresh (s : Survey) (label : Option Text) : Prop :=
  ∀ name, label = some name → ∀ d ∈ s.definitions, d.name ≠ name

theorem define_eq_ok {label : Option Text} {definitions : List Definition} :
    s.define label = .ok definitions ↔
      s.Fresh label ∧ definitions = s.added label ++ s.definitions := by
  unfold define Fresh
  cases label with
  | none => simp [added, eq_comm]
  | some name =>
    dsimp only
    split
    · next earlier hfind =>
      have hmem := List.mem_of_find?_eq_some hfind
      have hname : earlier.name = name := by simpa using List.find?_some hfind
      simp only [reduceCtorEq, false_iff, not_and]
      exact fun hfresh => absurd hname (hfresh name rfl earlier hmem)
    · next hfind =>
      have hfresh : ∀ d ∈ s.definitions, d.name ≠ name := by simpa using hfind
      constructor
      · intro h
        cases h
        exact ⟨fun _ hname => Option.some.inj hname ▸ hfresh, rfl⟩
      · rintro ⟨-, rfl⟩
        rfl

/-- All that a step of the survey can do. -/
theorem step_eq_ok : s.step raw = .ok s' ↔
    ∃ statement, Statement.ofLine raw = .ok statement ∧ s.Fresh statement.label ∧
      s' = ⟨s.line + 1, if statement.body.isEmpty then s.pc else s.pc + wordSize,
        s.added statement.label ++ s.definitions⟩ := by
  simp only [step, bind_eq_ok, define_eq_ok, pure, Except.pure, Except.ok.injEq]
  constructor
  · rintro ⟨statement, hstatement, _, ⟨hfresh, rfl⟩, rfl⟩
    exact ⟨statement, hstatement, hfresh, rfl⟩
  · rintro ⟨statement, hstatement, hfresh, rfl⟩
    exact ⟨statement, hstatement, _, ⟨hfresh, rfl⟩, rfl⟩

structure After (s : Survey) (done : List Text) : Prop where
  line : s.line = done.length
  pc : s.pc = wordAddress (instructionLines done).length
  statements : ∀ raw ∈ done, ∃ statement, Statement.ofLine raw = .ok statement
  definitions : ∀ d, d ∈ s.definitions ↔ Defines done d
  distinct : (s.definitions.map Definition.name).Nodup

theorem After.step (h : s.After done) (hstep : s.step raw = .ok s') :
    s'.After (done ++ [raw]) := by
  obtain ⟨statement, hstatement, hfresh, rfl⟩ := step_eq_ok.1 hstep
  refine ⟨?_, ?_, ?_, ?_, ?_⟩
  · simp [h.line]
  · rw [instructionLines_concat, Line.isInstruction_of_ok hstatement]
    cases hbody : statement.body.isEmpty with
    | true => simp [h.pc]
    | false => simp [h.pc, wordAddress_succ]
  · intro raw' hraw'
    rcases List.mem_append.1 hraw' with hraw' | hraw'
    · exact h.statements raw' hraw'
    · exact ⟨statement, List.mem_singleton.1 hraw' ▸ hstatement⟩
  · intro d
    rw [List.mem_append, mem_added, h.definitions, defines_concat,
      Line.labelOf_of_ok hstatement, h.line, h.pc, or_comm]
  · cases hlabel : statement.label with
    | none => exact h.distinct
    | some name =>
      have hnew : name ∉ s.definitions.map Definition.name := by
        intro hmem
        obtain ⟨d, hd, hname⟩ := List.mem_map.1 hmem
        exact hfresh name hlabel d hd hname
      exact List.nodup_cons.2 ⟨hnew, h.distinct⟩

theorem after_start : After {} [] :=
  ⟨rfl, rfl, nofun, fun d => by simp [Defines, labelAt], List.nodup_nil⟩

theorem After.label_unique {lines : List Text} (h : s.After lines) {i j : Nat} {name : Text}
    (hi : labelAt lines i = some name) (hj : labelAt lines j = some name) : i = j := by
  have hdi := (h.definitions ⟨name, i + 1, _⟩).2 ⟨i, hi, rfl, rfl⟩
  have hdj := (h.definitions ⟨name, j + 1, _⟩).2 ⟨j, hj, rfl, rfl⟩
  have heq := List.inj_on_of_nodup_map h.distinct hdi hdj rfl
  exact Nat.succ.inj (congrArg Definition.line heq)

theorem get?_symbols (h : (s.definitions.map Definition.name).Nodup) {name : Text}
    {address : Address} : s.symbols.get? name = some address ↔
      ∃ d ∈ s.definitions, d.name = name ∧ d.address = address := by
  unfold symbols
  generalize s.definitions = ds at h
  induction ds with
  | nil => simp
  | cons d ds ih =>
    rw [List.map_cons, List.nodup_cons] at h
    rw [List.foldr_cons, SymbolTable.get?_insert]
    by_cases hname : name = d.name
    · have hlater : ∀ d' ∈ ds, d'.name ≠ name := fun d' hd' heq =>
        h.1 (List.mem_map.2 ⟨d', hd', heq.trans hname⟩)
      rw [if_pos hname, Option.some.injEq]
      constructor
      · exact fun haddress => ⟨d, List.mem_cons_self, hname.symm, haddress⟩
      · rintro ⟨d', hd', hname', haddress⟩
        rcases List.mem_cons.1 hd' with rfl | hd'
        · exact haddress
        · exact absurd hname' (hlater d' hd')
    · rw [if_neg hname, ih h.2]
      simp [Ne.symm hname]

/-- The labels of the lines, and nothing else, with the addresses of their lines. -/
theorem After.get?_symbols {lines : List Text} (h : s.After lines) {name : Text}
    {address : Address} : s.symbols.get? name = some address ↔
      ∃ i, labelAt lines i = some name ∧ address = wordAddress (instructionsBefore lines i) := by
  rw [Survey.get?_symbols h.distinct]
  constructor
  · rintro ⟨d, hd, rfl, rfl⟩
    obtain ⟨i, hlabel, -, haddress⟩ := (h.definitions d).1 hd
    exact ⟨i, hlabel, haddress⟩
  · rintro ⟨i, hlabel, rfl⟩
    exact ⟨⟨name, i + 1, _⟩, (h.definitions _).2 ⟨i, hlabel, rfl, rfl⟩, rfl, rfl⟩

end Survey

namespace Program

theorem survey_after {lines : List Text} {s : Survey} (h : survey lines = .ok s) :
    s.After lines :=
  foldlM_preserves (fun done s => s.After done)
    (fun _ _ _ _ hs hread => hs.step (mapError_eq_ok.1 hread)) Survey.after_start h

/-- The survey gets through lines whose labels are well formed and all different. -/
theorem survey_succeeds {lines : List Text}
    (hstatements : ∀ raw ∈ lines, ∃ statement, Statement.ofLine raw = .ok statement)
    (hunique : ∀ i j name, labelAt lines i = some name → labelAt lines j = some name → i = j) :
    ∃ s, survey lines = .ok s ∧ s.After lines := by
  refine foldlM_progresses (fun done (s : Survey) => s.After done) ?_ Survey.after_start
  rintro done raw s ⟨rest, hlines⟩ hs
  obtain ⟨statement, hstatement⟩ := hstatements raw (by simp [← hlines])
  have hfresh : s.Fresh statement.label := by
    rintro name hlabel d hd rfl
    obtain ⟨i, hi, -, -⟩ := (hs.definitions d).1 hd
    have hlt := lt_of_labelAt hi
    have hearlier : labelAt lines i = some d.name := by
      rw [← hlines, List.append_assoc, labelAt_append done hlt, hi]
    have hhere : labelAt lines done.length = some d.name := by
      rw [← hlines, labelAt_append _ (by simp), labelAt_concat]
      exact .inr ⟨rfl, (Line.labelOf_of_ok hstatement).trans hlabel⟩
    exact absurd (hunique _ _ _ hearlier hhere) (Nat.ne_of_lt hlt)
  have hstep := Survey.step_eq_ok.2 ⟨statement, hstatement, hfresh, rfl⟩
  exact ⟨_, mapError_eq_ok.2 hstep, hs.step hstep⟩

end Program

end Rv32i
