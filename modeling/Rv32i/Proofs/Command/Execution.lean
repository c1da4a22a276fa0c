import Rv32i.Command.Execution
import Rv32i.Proofs.Except

/-!
# The steps of a run

A run goes through its steps in a fixed order: it reads, makes room, assembles and hands out. This
is settled here for every host that obeys a few laws about files. Several paths may lead to one
file, and what is opened for writing may be no file that keeps anything, as a device.
-/

set_option autoImplicit false

namespace Rv32i.Command

variable {σ : Type}

/-- The files of a host: where paths lead, what is kept, and what is behind a handle. -/
structure View (host : Host (StateM σ)) where
  File : Type
  file? : σ → Text → Option File
  contents : σ → File → Option (List UInt8)
  opened : host.Handle → Option File

namespace View

variable {host : Host (StateM σ)}

/-- Only the file behind the handle may differ, and a path is led to it or where it led before. -/
structure Confined (view : View host) (handle : host.Handle) (s s' : σ) : Prop where
  contents : ∀ f, view.opened handle ≠ some f → view.contents s' f = view.contents s f
  kept : ∀ path f, view.file? s path = some f → view.file? s' path = some f
  added : ∀ path, view.file? s' path = view.file? s path ∨ view.file? s' path = view.opened handle

theorem Confined.trans {view : View host} {handle : host.Handle} {s s' s'' : σ}
    (h : view.Confined handle s s') (h' : view.Confined handle s' s'') :
    view.Confined handle s s'' where
  contents f hf := (h'.contents f hf).trans (h.contents f hf)
  kept path f hf := h'.kept path f (h.kept path f hf)
  added path := by
    rcases h'.added path with hsame | hopened
    · rw [hsame]
      exact h.added path
    · exact .inr hopened

structure Lawful (view : View host) : Prop where
  input : ∀ s, (host.readInput.run s).2 = s
  terminal : ∀ s, (host.outputIsTerminal.run s).2 = s
  dump : ∀ symbols s, ((host.dump symbols).run s).2 = s
  read : ∀ path s, ((host.readFile path).run s).2 = s
  read_contents : ∀ path s bytes f, ((host.readFile path).run s).1 = .ok bytes →
    view.file? s path = some f → view.contents s f = some bytes
  create_refused : ∀ path s fault, ((host.createFile path).run s).1 = .error fault →
    ((host.createFile path).run s).2 = s
  create_leads : ∀ path s handle s', (host.createFile path).run s = (.ok handle, s') →
    view.file? s' path = view.opened handle
  create_empties : ∀ path s handle s' f, (host.createFile path).run s = (.ok handle, s') →
    view.opened handle = some f → view.contents s' f = some []
  create_confined : ∀ path s handle s', (host.createFile path).run s = (.ok handle, s') →
    view.Confined handle s s'
  write_fills : ∀ handle bytes s f, view.opened handle = some f →
    view.contents s f = some [] → view.contents ((host.write handle bytes).run s).2 f = some bytes
  write_confined : ∀ handle bytes s, view.Confined handle s ((host.write handle bytes).run s).2

end View

section Steps

variable {α β : Type} {s s' : σ} {x : ExceptT Failure (StateM σ) α}
  {f : α → ExceptT Failure (StateM σ) β}

theorem bind_run : (x >>= f).run.run s =
    (ExceptT.bindCont f (x.run.run s).1).run (x.run.run s).2 := rfl

theorem bind_run_ok {a : α} (h : x.run.run s = (.ok a, s')) :
    (x >>= f).run.run s = (f a).run.run s' := by
  rw [bind_run, h]
  rfl

theorem bind_run_error {failure : Failure} (h : x.run.run s = (.error failure, s')) :
    (x >>= f).run.run s = (.error failure, s') := by
  rw [bind_run, h]
  rfl

theorem liftFile_run (action : StateM σ (Except FileFault α)) :
    (liftFile action).run.run s =
      ((action.run s).1.mapError .file, (action.run s).2) := rfl

theorem liftM_run (action : StateM σ α) :
    (liftM action : ExceptT Failure (StateM σ) α).run.run s =
      (.ok (action.run s).1, (action.run s).2) := rfl

end Steps

section Run

variable {host : Host (StateM σ)} {view : View host} {o : Options} {argument : Option Text} {s : σ}

def Host.source (host : Host (StateM σ)) (argument : Option Text) (s : σ) :
    Except FileFault (List UInt8) :=
  ((host.readSource argument).run s).1

def Host.room (host : Host (StateM σ)) (path : Text) (s : σ) : Except FileFault host.Handle :=
  ((host.createFile path).run s).1

theorem Host.room_of_create {path : Text} {handle : host.Handle} {s' : σ}
    (h : (host.createFile path).run s = (.ok handle, s')) : host.room path s = .ok handle :=
  congrArg Prod.fst h

structure Host.Refuses (host : Host (StateM σ)) (o : Options) (s : σ) : Prop where
  shown : o.outputPath? = none
  binary : o.format = Rendering.bin.name
  terminal : (host.outputIsTerminal.run s).1 = true

inductive Host.Placed (host : Host (StateM σ)) (o : Options) (s : σ) :
    Option host.Handle → σ → Prop
  | shown (hpath : o.outputPath? = none) (hallowed : ¬ host.Refuses o s) : Placed host o s none s
  | created {path : Text} {handle : host.Handle} {s' : σ} (hpath : o.outputPath? = some path)
      (hcreate : (host.createFile path).run s = (.ok handle, s')) :
      Placed host o s (some handle) s'

inductive Ends (host : Host (StateM σ)) (o : Options) (argument : Option Text) (before : σ) :
    Except Failure Outcome → σ → Prop
  | unread {fault : FileFault} (hsource : host.source argument before = .error fault) :
      Ends host o argument before (.error (.file fault)) before
  | uncreated {source : List UInt8} {path : Text} {fault : FileFault}
      (hsource : host.source argument before = .ok source) (hpath : o.outputPath? = some path)
      (hroom : host.room path before = .error fault) :
      Ends host o argument before (.error (.file fault)) before
  | refused {source : List UInt8} (hsource : host.source argument before = .ok source)
      (hrefuses : host.Refuses o before) : Ends host o argument before (.error .terminal) before
  | unassembled {source : List UInt8} {handle : Option host.Handle} {placed : σ}
      {fault : AssemblyFault} (hsource : host.source argument before = .ok source)
      (hplaced : host.Placed o before handle placed)
      (hassemble : assemble o source = .error fault) :
      Ends host o argument before (.error (.assembly (sourceName argument) fault)) placed
  | done {source : List UInt8} {handle : Option host.Handle} {placed after : σ}
      {output bytes : List UInt8} {symbols : SymbolTable}
      (hsource : host.source argument before = .ok source)
      (hplaced : host.Placed o before handle placed)
      (hassemble : assemble o source = .ok (bytes, symbols))
      (hdeliver : (host.deliver handle bytes).run placed = (output, after)) :
      Ends host o argument before
        (.ok ⟨0, output, if o.symbols then ((host.dump symbols).run after).1 else []⟩) after

namespace View.Lawful

variable (hview : view.Lawful)

include hview

theorem readSource_run (argument : Option Text) :
    (liftFile (host.readSource argument)).run.run s =
      ((host.source argument s).mapError .file, s) := by
  have hstate : ((host.readSource argument).run s).2 = s := by
    unfold Host.readSource
    split
    · exact hview.input s
    · exact hview.read _ s
  rw [liftFile_run, hstate]
  rfl

theorem readSource_run_ok {source : List UInt8} (hsource : host.source argument s = .ok source) :
    (liftFile (host.readSource argument)).run.run s = (.ok source, s) := by
  rw [hview.readSource_run, hsource]
  rfl

theorem report (symbols : SymbolTable) : (host.report o symbols).run s =
    (if o.symbols then ((host.dump symbols).run s).1 else [], s) := by
  unfold Host.report
  split
  · exact Prod.ext rfl (hview.dump symbols s)
  · rfl

theorem terminal_run {shown : Bool} (h : (host.outputIsTerminal.run s).1 = shown) :
    (liftM host.outputIsTerminal : ExceptT Failure (StateM σ) Bool).run.run s = (.ok shown, s) := by
  rw [liftM_run, h, hview.terminal]

theorem prepare_of_room_error {path : Text} {fault : FileFault} (hpath : o.outputPath? = some path)
    (hroom : host.room path s = .error fault) :
    (host.prepare o).run.run s = (.error (.file fault), s) := by
  unfold Host.prepare
  rw [hpath]
  apply bind_run_error
  rw [liftFile_run, hview.create_refused path s fault hroom]
  exact congrArg (fun x => (Except.mapError Failure.file x, s)) hroom

theorem prepare_of_refuses (h : host.Refuses o s) :
    (host.prepare o).run.run s = (.error .terminal, s) := by
  obtain ⟨hpath, hformat, hterminal⟩ := h
  simp only [Host.prepare, hpath, hformat, beq_self_eq_true, if_true]
  exact (bind_run_ok (hview.terminal_run hterminal)).trans rfl

theorem prepare_of_placed {handle : Option host.Handle} {placed : σ}
    (h : host.Placed o s handle placed) : (host.prepare o).run.run s = (.ok handle, placed) := by
  cases h with
  | created hpath hcreate =>
    unfold Host.prepare
    rw [hpath]
    apply (bind_run_ok ?_).trans rfl
    rw [liftFile_run, hcreate]
    rfl
  | shown hpath hallowed =>
    by_cases hformat : o.format = Rendering.bin.name
    · have hhidden : (host.outputIsTerminal.run s).1 = false := by
        rw [Bool.eq_false_iff]
        exact fun hterminal => hallowed ⟨hpath, hformat, hterminal⟩
      simp only [Host.prepare, hpath, hformat, beq_self_eq_true, if_true]
      exact (bind_run_ok (hview.terminal_run hhidden)).trans rfl
    · have hother : (o.format == Rendering.bin.name) = false := beq_eq_false_iff_ne.2 hformat
      simp only [Host.prepare, hpath, hother, Bool.false_eq_true, if_false]
      rfl

theorem perform_of_ends {result : Except Failure Outcome} {after : σ}
    (h : Ends host o argument s result after) :
    (perform host o argument).run.run s = (result, after) := by
  unfold perform
  cases h with
  | unread hsource =>
    apply bind_run_error
    rw [hview.readSource_run, hsource]
    rfl
  | uncreated hsource hpath hroom =>
    refine (bind_run_ok (hview.readSource_run_ok hsource)).trans ?_
    exact bind_run_error (hview.prepare_of_room_error hpath hroom)
  | refused hsource hrefuses =>
    refine (bind_run_ok (hview.readSource_run_ok hsource)).trans ?_
    exact bind_run_error (hview.prepare_of_refuses hrefuses)
  | unassembled hsource hplaced hassemble =>
    refine (bind_run_ok (hview.readSource_run_ok hsource)).trans ?_
    refine (bind_run_ok (hview.prepare_of_placed hplaced)).trans ?_
    rw [hassemble]
    rfl
  | @done _ handle placed after output bytes symbols hsource hplaced hassemble hdeliver =>
    refine (bind_run_ok (hview.readSource_run_ok hsource)).trans ?_
    refine (bind_run_ok (hview.prepare_of_placed hplaced)).trans ?_
    rw [hassemble]
    have hdelivered := liftM_run (s := placed) (host.deliver handle bytes)
    rw [hdeliver] at hdelivered
    have hreported := liftM_run (s := after) (host.report o symbols)
    rw [hview.report] at hreported
    exact (bind_run_ok hdelivered).trans ((bind_run_ok hreported).trans rfl)

end View.Lawful

theorem placed_or_not (host : Host (StateM σ)) (o : Options) (s : σ) :
    (∃ path fault, o.outputPath? = some path ∧ host.room path s = .error fault) ∨
      host.Refuses o s ∨ ∃ handle placed, host.Placed o s handle placed := by
  cases hpath : o.outputPath? with
  | none =>
    by_cases hrefuses : host.Refuses o s
    · exact .inr (.inl hrefuses)
    · exact .inr (.inr ⟨none, s, .shown hpath hrefuses⟩)
  | some path =>
    cases hroom : host.room path s with
    | error fault => exact .inl ⟨path, fault, rfl, hroom⟩
    | ok handle => exact .inr (.inr ⟨some handle, _, .created hpath (Prod.ext hroom rfl)⟩)

theorem exists_ends (host : Host (StateM σ)) (o : Options) (argument : Option Text) (before : σ) :
    ∃ result after, Ends host o argument before result after := by
  cases hsource : host.source argument before with
  | error fault => exact ⟨_, _, .unread hsource⟩
  | ok source =>
    rcases placed_or_not host o before with ⟨path, fault, hpath, hroom⟩ | hrefuses | hroom
    · exact ⟨_, _, .uncreated hsource hpath hroom⟩
    · exact ⟨_, _, .refused hsource hrefuses⟩
    · obtain ⟨handle, placed, hplaced⟩ := hroom
      cases hassemble : assemble o source with
      | error fault => exact ⟨_, _, .unassembled hsource hplaced hassemble⟩
      | ok yield => exact ⟨_, _, .done hsource hplaced hassemble rfl⟩

theorem View.Lawful.execute_of_ends (hview : view.Lawful) {result : Except Failure Outcome}
    {after : σ} (h : Ends host o argument s result after) :
    (execute host o argument).run s = (.conclude result, after) := by
  have hexecute : (execute host o argument).run s =
      (.conclude ((perform host o argument).run.run s).1,
        ((perform host o argument).run.run s).2) := rfl
  rw [hexecute, hview.perform_of_ends h]

theorem assemble_eq_ok_iff {source bytes : List UInt8} {symbols : SymbolTable} :
    assemble o source = .ok (bytes, symbols) ↔ ∃ r p, Rendering.parse o.format = .ok r ∧
      Program.ofSource (Text.ofBytes source) = .ok p ∧
      r.render o.annotate p.words = bytes ∧ p.symbols = symbols := by
  unfold assemble
  simp only [bind_eq_ok, mapError_eq_ok, pure, Except.pure, Except.ok.injEq, Prod.mk.injEq]
  constructor
  · rintro ⟨r, hr, p, hp, hbytes, hsymbols⟩
    exact ⟨r, p, hr, hp, hbytes, hsymbols⟩
  · rintro ⟨r, p, hr, hp, hbytes, hsymbols⟩
    exact ⟨r, hr, p, hp, hbytes, hsymbols⟩

end Run

end Rv32i.Command
