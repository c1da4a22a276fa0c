import Rv32i.Command.Files
import Rv32i.Proofs.Command.Execution

/-!
# Files in memory obey the laws

Where a path leads does not depend on what the files hold: names lead through directories alone, and
these are not among the files. So a file that was made is found again where it was to be made, and
no other path is led elsewhere.
-/

set_option autoImplicit false

namespace Rv32i.Command

namespace FileTree

variable {t : FileTree} {l l' : Location} {contents : List UInt8} {text : Text} {path : Path}

theorem contents?_put (t : FileTree) (l l' : Location) (contents : List UInt8) :
    (t.put l contents).contents? l' = if l' = l then some contents else t.contents? l' := by
  by_cases h : l' = l
  · simp [put, contents?, h]
  · have hne : (l' == l) = false := by simpa using h
    simp [put, contents?, List.lookup_cons, h, hne, SymbolTable.lookup_filter_ne t.files h]

theorem entry_eq_directory : t.entry l = .directory ↔ l ∈ t.directories := by
  unfold entry
  split
  · next h => exact ⟨fun _ => h, fun _ => rfl⟩
  · next h =>
    refine ⟨fun hentry => ?_, fun hmem => absurd hmem h⟩
    split at hentry
    · cases hentry
    · split at hentry <;> cases hentry

theorem entry_eq_file : t.entry l = .file contents ↔
    l ∉ t.directories ∧ l ≠ Location.null ∧ t.contents? l = some contents := by
  unfold entry
  by_cases hdirectory : l ∈ t.directories
  · simp [hdirectory]
  · by_cases hnull : l = Location.null
    · rw [if_neg hdirectory, if_pos hnull]
      exact ⟨nofun, fun h => absurd hnull h.2.1⟩
    · cases hcontents : t.contents? l <;> simp [hdirectory, hnull]

section Paths

/-- Names lead through directories alone. -/
theorem descend_cons {name : Text} {rest : List Text} : t.descend l (name :: rest) = .ok l' ↔
    ∃ next, l.step name = .ok next ∧ next ∈ t.directories ∧ t.descend next rest = .ok l' := by
  simp only [descend, bind_eq_ok, ← entry_eq_directory]
  constructor
  · rintro ⟨next, hnext, hrest⟩
    refine ⟨next, hnext, ?_⟩
    cases hentry : t.entry next with
    | directory =>
      rw [hentry] at hrest
      exact ⟨rfl, hrest⟩
    | device | file _ | free =>
      rw [hentry] at hrest
      cases hrest
  · rintro ⟨next, hnext, hentry, hrest⟩
    refine ⟨next, hnext, ?_⟩
    rw [hentry]
    exact hrest

theorem descend_put {names : List Text} {start : Location} :
    (t.put l contents).descend start names = .ok l' ↔ t.descend start names = .ok l' := by
  induction names generalizing start with
  | nil => rfl
  | cons name rest ih =>
    rw [descend_cons, descend_cons]
    simp only [ih]
    rfl

theorem locate_put : (t.put l contents).locate path = .ok l' ↔ t.locate path = .ok l' := by
  unfold locate parent
  rw [bind_eq_ok, bind_eq_ok]
  simp only [descend_put]
  rfl

theorem locate_of_place (h : t.place path = .ok l) :
    t.locate path = .ok l ∧ path.slashed = false ∧ l ∉ t.directories := by
  unfold place at h
  obtain ⟨directory, hparent, hlast⟩ := bind_eq_ok.1 h
  cases hname : path.names.getLast? with
  | none =>
    rw [hname] at hlast
    cases hlast
  | some name =>
    rw [hname] at hlast
    cases hslashed : path.slashed with
    | true =>
      simp only [hslashed, if_true] at hlast
      cases hlast
    | false =>
      simp only [hslashed, Bool.false_eq_true, if_false] at hlast
      obtain ⟨found, hstep, hentry⟩ := bind_eq_ok.1 hlast
      have hfree : found ∉ t.directories := by
        rw [← entry_eq_directory]
        intro hdirectory
        rw [hdirectory] at hentry
        cases hentry
      have hfound : found = l := by
        cases hcase : t.entry found with
        | directory => exact absurd (entry_eq_directory.1 hcase) hfree
        | device | file _ | free =>
          rw [hcase] at hentry
          exact Except.ok.inj hentry
      subst hfound
      refine ⟨?_, rfl, hfree⟩
      unfold locate
      rw [bind_eq_ok]
      refine ⟨directory, hparent, ?_⟩
      rw [hname]
      exact hstep

end Paths

/-- The path leads to this place, whether or not a file is there. -/
def Leads (t : FileTree) (text : Text) (l : Location) : Prop :=
  ∃ path, Path.parse text = .ok path ∧ path.slashed = false ∧ t.locate path = .ok l

theorem Leads.unique (h : t.Leads text l) (h' : t.Leads text l') : l = l' := by
  obtain ⟨path, hparse, -, hlocate⟩ := h
  obtain ⟨path', hparse', -, hlocate'⟩ := h'
  cases hparse.symm.trans hparse'
  exact Except.ok.inj (hlocate.symm.trans hlocate')

theorem leads_put : (t.put l contents).Leads text l' ↔ t.Leads text l' := by
  simp only [Leads, locate_put]

theorem leads_of_target (h : t.target text = .ok l) : t.Leads text l ∧ l ∉ t.directories := by
  rw [target, mapError_eq_ok] at h
  obtain ⟨path, hparse, hplace⟩ := bind_eq_ok.1 h
  obtain ⟨hlocate, hslashed, hfree⟩ := locate_of_place hplace
  exact ⟨⟨path, hparse, hslashed, hlocate⟩, hfree⟩

def Holds (t : FileTree) (l : Location) : Prop :=
  l ∉ t.directories ∧ l ≠ Location.null ∧ (t.contents? l).isSome = true

theorem holds_put : (t.put l contents).Holds l' ↔
    t.Holds l' ∨ l' = l ∧ l ∉ t.directories ∧ l ≠ Location.null := by
  unfold Holds
  rw [contents?_put]
  have hdirectories : (t.put l contents).directories = t.directories := rfl
  rw [hdirectories]
  by_cases h : l' = l
  · subst h
    rw [if_pos rfl]
    constructor
    · exact fun ⟨hfree, hnull, _⟩ => .inr ⟨rfl, hfree, hnull⟩
    · rintro (⟨hfree, hnull, -⟩ | ⟨-, hfree, hnull⟩)
      · exact ⟨hfree, hnull, rfl⟩
      · exact ⟨hfree, hnull, rfl⟩
  · rw [if_neg h]
    exact ⟨.inl, fun h' => h'.resolve_right fun h'' => h h''.1⟩

open Classical in
noncomputable def fileAt? (t : FileTree) (text : Text) : Option Location :=
  if h : ∃ l, t.Leads text l ∧ t.Holds l then some h.choose else none

theorem fileAt?_eq_some : t.fileAt? text = some l ↔ t.Leads text l ∧ t.Holds l := by
  unfold fileAt?
  split
  · next h =>
    obtain ⟨hleads, hholds⟩ := h.choose_spec
    constructor
    · intro heq
      rw [← Option.some.inj heq]
      exact ⟨hleads, hholds⟩
    · exact fun hl => congrArg some (hleads.unique hl.1)
  · next h => exact ⟨nofun, fun hl => absurd ⟨l, hl⟩ h⟩

theorem contents_of_read {bytes : List UInt8} (h : t.read text = .ok bytes)
    (hfile : t.fileAt? text = some l) : t.contents? l = some bytes := by
  obtain ⟨⟨path, hparse, hslashed, hlocate⟩, hfree, hnull, hsome⟩ := fileAt?_eq_some.1 hfile
  obtain ⟨held, hheld⟩ := Option.isSome_iff_exists.1 hsome
  have hentry : t.entry l = .file held := entry_eq_file.2 ⟨hfree, hnull, hheld⟩
  have hread : t.read text = .ok held := by
    simp [read, hparse, hlocate, hslashed, hentry, bind, Except.bind, pure, Except.pure]
  rw [hheld, Except.ok.inj (hread.symm.trans h)]

variable {terminal : Bool} {input : List UInt8}

open Classical in
/-- The null device keeps nothing. -/
noncomputable def view (terminal : Bool) (input : List UInt8) : View (host terminal input) where
  File := Location
  file? := fileAt?
  contents := contents?
  opened l := if l = Location.null then none else some l

theorem write_of_ne (t : FileTree) (bytes : List UInt8) (h : l ≠ Location.null) :
    t.write l bytes = t.put l bytes := if_neg h

theorem opened_of_ne (h : l ≠ Location.null) : (view terminal input).opened l = some l := if_neg h

theorem createFile_run (text : Text) : ((host terminal input).createFile text).run t =
    match t.target text with
    | .error fault => (.error fault, t)
    | .ok l => (.ok l, t.write l []) := by
  cases htarget : t.target text <;> simp [host, htarget] <;> rfl

theorem createFile_eq_ok {t' : FileTree}
    (h : ((host terminal input).createFile text).run t = (.ok l, t')) :
    t.target text = .ok l ∧ t' = t.write l [] := by
  rw [createFile_run] at h
  cases htarget : t.target text with
  | error fault =>
    rw [htarget] at h
    cases h
  | ok found =>
    rw [htarget] at h
    cases h
    exact ⟨rfl, rfl⟩

theorem contents?_write {f : Location} (t : FileTree) (bytes : List UInt8)
    (hopened : (view terminal input).opened l = some f) :
    (t.write l bytes).contents? f = some bytes := by
  by_cases hnull : l = Location.null
  · have hnone : (view terminal input).opened l = none := if_pos hnull
    cases hnone.symm.trans hopened
  · cases (opened_of_ne hnull).symm.trans hopened
    rw [write_of_ne t bytes hnull, contents?_put, if_pos rfl]

theorem write_confined (t : FileTree) (l : Location) (bytes : List UInt8) :
    (view terminal input).Confined l t (t.write l bytes) := by
  by_cases hnull : l = Location.null
  · have hsame : t.write l bytes = t := if_pos hnull
    rw [hsame]
    exact ⟨fun _ _ => rfl, fun _ _ h => h, fun _ => .inl rfl⟩
  · have hopened : (view terminal input).opened l = some l := opened_of_ne hnull
    rw [write_of_ne t bytes hnull]
    constructor
    · intro f hf
      have hne : f ≠ l := fun heq => hf (heq ▸ hopened)
      exact (contents?_put t l f bytes).trans (if_neg hne)
    · intro path f hfile
      obtain ⟨hleads, hholds⟩ := fileAt?_eq_some.1 hfile
      exact fileAt?_eq_some.2 ⟨leads_put.2 hleads, holds_put.2 (.inl hholds)⟩
    · intro path
      rw [hopened]
      by_cases hnew : (t.put l bytes).fileAt? path = some l
      · exact .inr hnew
      · left
        change (t.put l bytes).fileAt? path = t.fileAt? path
        apply Option.ext
        intro f
        rw [fileAt?_eq_some, fileAt?_eq_some, leads_put, holds_put]
        constructor
        · rintro ⟨hleads, hholds | ⟨rfl, hplace⟩⟩
          · exact ⟨hleads, hholds⟩
          · exact absurd (fileAt?_eq_some.2 ⟨leads_put.2 hleads, holds_put.2 (.inr ⟨rfl, hplace⟩)⟩)
              hnew
        · exact fun ⟨hleads, hholds⟩ => ⟨hleads, .inl hholds⟩

theorem lawful (terminal : Bool) (input : List UInt8) : (view terminal input).Lawful where
  input _ := rfl
  terminal _ := rfl
  dump _ _ := rfl
  read _ _ := rfl
  read_contents _ _ _ _ hread hfile := contents_of_read hread hfile
  create_refused path t fault h := by
    rw [createFile_run] at h ⊢
    cases htarget : t.target path with
    | error _ => rfl
    | ok l =>
      rw [htarget] at h
      cases h
  create_leads path t l t' h := by
    obtain ⟨htarget, rfl⟩ := createFile_eq_ok h
    obtain ⟨hleads, hfree⟩ := leads_of_target htarget
    by_cases hnull : l = Location.null
    · have hsame : t.write l [] = t := if_pos hnull
      have hopened : (view terminal input).opened l = none := if_pos hnull
      rw [hsame, hopened]
      apply Option.eq_none_iff_forall_ne_some.2
      intro f hfile
      obtain ⟨hleads', -, hdevice, -⟩ := fileAt?_eq_some.1 hfile
      exact hdevice ((hleads'.unique hleads).trans hnull)
    · rw [write_of_ne t [] hnull, opened_of_ne hnull]
      exact fileAt?_eq_some.2 ⟨leads_put.2 hleads, holds_put.2 (.inr ⟨rfl, hfree, hnull⟩)⟩
  create_empties path t l t' f h hopened := by
    obtain ⟨-, rfl⟩ := createFile_eq_ok h
    exact contents?_write t [] hopened
  create_confined path t l t' h := by
    obtain ⟨-, rfl⟩ := createFile_eq_ok h
    exact write_confined t l []
  write_fills _ bytes t _ hopened _ := contents?_write t bytes hopened
  write_confined l bytes t := write_confined t l bytes

end FileTree

end Rv32i.Command
