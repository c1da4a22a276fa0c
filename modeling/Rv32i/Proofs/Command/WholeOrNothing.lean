import Rv32i.Proofs.Command.Files

/-!
# The whole result or nothing

A run that fails has written nothing but an empty file, and a run that succeeds has written the
whole rendering to the one place it was asked for. The source is read before the output file is
emptied, so they may be the same file. Besides what is wrong with a source, a format or a file there
is one more reason to fail: binary output is not shown on a terminal.
-/

set_option autoImplicit false

namespace Rv32i.Command

open Text (ofString)

variable {σ : Type} {host : Host (StateM σ)} {view : View host} {o : Options}
  {argument : Option Text} {before after : σ}

structure Accepts (host : Host (StateM σ)) (o : Options) (argument : Option Text) (before : σ)
    (source : List UInt8) (r : Rendering) (p : Program) : Prop where
  readable : host.source argument before = .ok source
  room : ∀ path, o.outputPath? = some path → ∃ handle, host.room path before = .ok handle
  rendering : Rendering.parse o.format = .ok r
  program : Program.ofSource (Text.ofBytes source) = .ok p

def View.Target (view : View host) (o : Options) (before : σ) (f : view.File) : Prop :=
  ∃ path handle, o.outputPath? = some path ∧ host.room path before = .ok handle ∧
    view.opened handle = some f

structure View.Made (view : View host) (o : Options) (before after : σ) (path : Text)
    (handle : host.Handle) (placed : σ) : Prop where
  asked : o.outputPath? = some path
  create : (host.createFile path).run before = (.ok handle, placed)
  leads : view.file? after path = view.opened handle

def Host.printing (host : Host (StateM σ)) (dump : SymbolTable → Text) : Host (StateM σ) :=
  { host with dump := fun symbols => pure (dump symbols) }

structure WholeOrNothing (view : View host) (o : Options) (argument : Option Text)
    (before after : σ) (outcome : Outcome) : Prop where
  status : outcome.status = 0 ∨ outcome.status = 1
  succeeds_iff : outcome.status = 0 ↔
    ¬ host.Refuses o before ∧ ∃ source r p, Accepts host o argument before source r p
  source_before : ∀ path f source, sourcePath? argument = some path →
    host.source argument before = .ok source → view.file? before path = some f →
    view.contents before f = some source
  whole : outcome.status = 0 → ∀ source r p, Accepts host o argument before source r p →
    outcome.output = (if o.outputPath? = none then r.render o.annotate p.words else []) ∧
    outcome.errors = (if o.symbols then ((host.dump p.symbols).run after).1 else []) ∧
    (o.outputPath? = none → after = before) ∧
    (∀ path, o.outputPath? = some path → ∃ handle placed,
      view.Made o before after path handle placed ∧
      after = ((host.write handle (r.render o.annotate p.words)).run placed).2) ∧
    ∀ f, view.Target o before f → view.contents after f = some (r.render o.annotate p.words)
  nothing : outcome.status = 1 → outcome.output = [] ∧
    (∃ failure : Failure, outcome.errors = failure.message ++ [.scalar '\n']) ∧
    ∀ dump, (execute (host.printing dump) o argument).run before = (outcome, after)
  emptied : outcome.status = 1 → ∀ source, host.source argument before = .ok source →
    (∀ path handle, o.outputPath? = some path → host.room path before = .ok handle →
      view.Made o before after path handle after) ∧
    ∀ f, view.Target o before f → view.contents after f = some []
  others : ∀ f, ¬ view.Target o before f → view.contents after f = view.contents before f
  kept : ∀ path f, view.file? before path = some f → view.file? after path = some f
  added : ∀ path f, view.file? after path = some f →
    view.file? before path = some f ∨ view.Target o before f
  untouched : ∀ fault, host.source argument before = .error fault ∨
    (∃ path, o.outputPath? = some path ∧ host.room path before = .error fault) → after = before

namespace Host.Placed

variable {handle : Option host.Handle} {placed : σ}

theorem room (h : host.Placed o before handle placed) (path : Text)
    (hpath : o.outputPath? = some path) :
    ∃ opened, handle = some opened ∧ (host.createFile path).run before = (.ok opened, placed) := by
  cases h with
  | shown hnone => cases hnone.symm.trans hpath
  | created hpath' hcreate =>
    cases hpath'.symm.trans hpath
    exact ⟨_, rfl, hcreate⟩

theorem not_refuses (h : host.Placed o before handle placed) : ¬ host.Refuses o before := by
  cases h with
  | shown _ hallowed => exact hallowed
  | created hpath => exact fun hrefuses => by cases hrefuses.shown.symm.trans hpath

theorem target (h : host.Placed o before handle placed) {f : view.File}
    (hf : view.Target o before f) :
    ∃ opened, handle = some opened ∧ view.opened opened = some f := by
  obtain ⟨path, opened, hpath, hroom, hfile⟩ := hf
  obtain ⟨opened', rfl, hcreate⟩ := h.room path hpath
  cases hroom.symm.trans (Host.room_of_create hcreate)
  exact ⟨opened, rfl, hfile⟩

theorem target_of_opened {opened : host.Handle} (h : host.Placed o before (some opened) placed)
    {f : view.File} (hf : view.opened opened = some f) : view.Target o before f := by
  cases h with
  | created hpath hcreate => exact ⟨_, opened, hpath, Host.room_of_create hcreate, hf⟩

theorem printing (h : host.Placed o before handle placed) (dump : SymbolTable → Text) :
    (host.printing dump).Placed o before handle placed := by
  cases h with
  | shown hpath hallowed =>
    exact .shown hpath fun h => hallowed ⟨h.shown, h.binary, h.terminal⟩
  | created hpath hcreate => exact .created hpath hcreate

end Host.Placed

def View.printing (view : View host) (dump : SymbolTable → Text) : View (host.printing dump) :=
  ⟨view.File, view.file?, view.contents, view.opened⟩

theorem View.Confined.printing {handle : host.Handle} {s s' : σ} (h : view.Confined handle s s')
    (dump : SymbolTable → Text) : (view.printing dump).Confined handle s s' :=
  ⟨h.contents, h.kept, h.added⟩

theorem View.Lawful.printing (hview : view.Lawful) (dump : SymbolTable → Text) :
    (view.printing dump).Lawful where
  input := hview.input
  terminal := hview.terminal
  dump _ _ := rfl
  read := hview.read
  read_contents := hview.read_contents
  create_refused := hview.create_refused
  create_leads := hview.create_leads
  create_empties := hview.create_empties
  create_confined path s handle s' h := (hview.create_confined path s handle s' h).printing dump
  write_fills := hview.write_fills
  write_confined handle bytes s := (hview.write_confined handle bytes s).printing dump

def Touches (view : View host) (o : Options) (before after : σ) : Prop :=
  after = before ∨ ∃ handle placed, host.Placed o before (some handle) placed ∧
    view.Confined handle before after

namespace Touches

theorem others (h : Touches view o before after) {f : view.File}
    (hf : ¬ view.Target o before f) : view.contents after f = view.contents before f := by
  rcases h with rfl | ⟨handle, placed, hplaced, hconfined⟩
  · rfl
  · exact hconfined.contents f fun hopened => hf (hplaced.target_of_opened hopened)

theorem kept (h : Touches view o before after) {path : Text} {f : view.File}
    (hf : view.file? before path = some f) : view.file? after path = some f := by
  rcases h with rfl | ⟨handle, placed, hplaced, hconfined⟩
  · exact hf
  · exact hconfined.kept path f hf

theorem added (h : Touches view o before after) {path : Text} {f : view.File}
    (hf : view.file? after path = some f) :
    view.file? before path = some f ∨ view.Target o before f := by
  rcases h with rfl | ⟨handle, placed, hplaced, hconfined⟩
  · exact .inl hf
  · rcases hconfined.added path with hsame | hopened
    · exact .inl (hsame ▸ hf)
    · exact .inr (hplaced.target_of_opened (hopened.symm.trans hf))

end Touches

namespace Ends

variable {result : Except Failure Outcome}

theorem touches (hview : view.Lawful) (h : Ends host o argument before result after) :
    Touches view o before after := by
  cases h with
  | unread | uncreated | refused => exact .inl rfl
  | unassembled _ hplaced =>
    cases hplaced with
    | shown => exact .inl rfl
    | created hpath hcreate =>
      exact .inr ⟨_, _, .created hpath hcreate, hview.create_confined _ _ _ _ hcreate⟩
  | done _ hplaced _ hdeliver =>
    cases hplaced with
    | shown =>
      cases hdeliver
      exact .inl rfl
    | created hpath hcreate =>
      cases hdeliver
      refine .inr ⟨_, _, .created hpath hcreate, ?_⟩
      exact (hview.create_confined _ _ _ _ hcreate).trans (hview.write_confined _ _ _)

theorem status_iff (h : Ends host o argument before result after) :
    (Outcome.conclude result).status = 0 ↔
      ¬ host.Refuses o before ∧ ∃ source r p, Accepts host o argument before source r p := by
  cases h with
  | unread hsource =>
    refine ⟨nofun, ?_⟩
    rintro ⟨-, source, r, p, haccepts⟩
    cases hsource.symm.trans haccepts.readable
  | uncreated _ hpath hroom =>
    refine ⟨nofun, ?_⟩
    rintro ⟨-, source, r, p, haccepts⟩
    obtain ⟨handle, hhandle⟩ := haccepts.room _ hpath
    cases hroom.symm.trans hhandle
  | refused _ hrefuses => exact ⟨nofun, fun h => absurd hrefuses h.1⟩
  | unassembled hsource _ hassemble =>
    refine ⟨nofun, ?_⟩
    rintro ⟨-, source, r, p, haccepts⟩
    cases hsource.symm.trans haccepts.readable
    cases hassemble.symm.trans
      (assemble_eq_ok_iff.2 ⟨r, p, haccepts.rendering, haccepts.program, rfl, rfl⟩)
  | done hsource hplaced hassemble =>
    obtain ⟨r, p, hrendering, hprogram, -, -⟩ := assemble_eq_ok_iff.1 hassemble
    refine ⟨fun _ => ⟨hplaced.not_refuses, _, r, p, hsource, ?_, hrendering, hprogram⟩, ?_⟩
    · intro path hpath
      obtain ⟨handle, -, hcreate⟩ := hplaced.room path hpath
      exact ⟨handle, Host.room_of_create hcreate⟩
    · exact fun _ => rfl

theorem printing {failure : Failure} (h : Ends host o argument before (.error failure) after)
    (dump : SymbolTable → Text) :
    Ends (host.printing dump) o argument before (.error failure) after := by
  cases h with
  | unread hsource => exact .unread hsource
  | uncreated hsource hpath hroom => exact .uncreated hsource hpath hroom
  | refused hsource hrefuses =>
    exact .refused hsource ⟨hrefuses.shown, hrefuses.binary, hrefuses.terminal⟩
  | unassembled hsource hplaced hassemble =>
    exact .unassembled hsource (hplaced.printing dump) hassemble

theorem whole (hview : view.Lawful) {outcome : Outcome}
    (h : Ends host o argument before (.ok outcome) after) {source : List UInt8} {r : Rendering}
    {p : Program} (haccepts : Accepts host o argument before source r p) :
    outcome.output = (if o.outputPath? = none then r.render o.annotate p.words else []) ∧
      outcome.errors = (if o.symbols then ((host.dump p.symbols).run after).1 else []) ∧
      (o.outputPath? = none → after = before) ∧
      (∀ path, o.outputPath? = some path → ∃ handle placed,
        view.Made o before after path handle placed ∧
        after = ((host.write handle (r.render o.annotate p.words)).run placed).2) ∧
      ∀ f, view.Target o before f → view.contents after f = some (r.render o.annotate p.words) := by
  cases h with
  | @done _ _ placed _ _ _ _ hsource hplaced hassemble hdeliver =>
    cases hsource.symm.trans haccepts.readable
    cases hassemble.symm.trans
      (assemble_eq_ok_iff.2 ⟨r, p, haccepts.rendering, haccepts.program, rfl, rfl⟩)
    cases hplaced with
    | shown hpath hallowed =>
      cases hdeliver
      refine ⟨(if_pos hpath).symm, rfl, fun _ => rfl, fun path hsome => ?_, fun f hf => ?_⟩
      · cases hpath.symm.trans hsome
      · obtain ⟨path, handle, hsome, -⟩ := hf
        cases hpath.symm.trans hsome
    | @created path handle _ hpath hcreate =>
      cases hdeliver
      have hwrite := hview.write_confined handle (r.render o.annotate p.words) placed
      have hleads := hview.create_leads _ _ _ _ hcreate
      refine ⟨?_, rfl, fun hnone => ?_, fun path' hsome => ?_, fun f hf => ?_⟩
      · exact (if_neg fun hnone => by cases hnone.symm.trans hpath).symm
      · cases hnone.symm.trans hpath
      · cases hpath.symm.trans hsome
        refine ⟨handle, placed, ⟨hpath, hcreate, ?_⟩, rfl⟩
        exact (hwrite.added path).elim (fun hsame => hsame.trans hleads) id
      · obtain ⟨opened, hopened, hfile⟩ := Host.Placed.target (.created hpath hcreate) hf
        cases hopened
        exact hview.write_fills _ _ _ _ hfile (hview.create_empties _ _ _ _ _ hcreate hfile)

theorem emptied (hview : view.Lawful) {failure : Failure}
    (h : Ends host o argument before (.error failure) after) {source : List UInt8}
    (hread : host.source argument before = .ok source) {path : Text} {handle : host.Handle}
    (hpath : o.outputPath? = some path) (hroom : host.room path before = .ok handle) :
    view.Made o before after path handle after ∧
      ∀ f, view.opened handle = some f → view.contents after f = some [] := by
  cases h with
  | unread hsource => cases hsource.symm.trans hread
  | uncreated _ hpath' hroom' =>
    cases hpath.symm.trans hpath'
    cases hroom.symm.trans hroom'
  | refused _ hrefuses => cases hrefuses.shown.symm.trans hpath
  | unassembled _ hplaced =>
    obtain ⟨opened, rfl, hcreate⟩ := hplaced.room path hpath
    cases hroom.symm.trans (Host.room_of_create hcreate)
    refine ⟨⟨hpath, hcreate, hview.create_leads _ _ _ _ hcreate⟩, fun f hf => ?_⟩
    exact hview.create_empties _ _ _ _ _ hcreate hf

theorem untouched (h : Ends host o argument before result after) {fault : FileFault}
    (hfault : host.source argument before = .error fault ∨
      ∃ path, o.outputPath? = some path ∧ host.room path before = .error fault) :
    after = before := by
  have hplace {handle : Option host.Handle} {placed : σ} {source : List UInt8}
      (hsource : host.source argument before = .ok source)
      (hplaced : host.Placed o before handle placed) : False := by
    rcases hfault with hfault | ⟨path, hpath, hfault⟩
    · cases hsource.symm.trans hfault
    · obtain ⟨opened, -, hcreate⟩ := hplaced.room path hpath
      cases hfault.symm.trans (Host.room_of_create hcreate)
  cases h with
  | unread | uncreated | refused => rfl
  | unassembled hsource hplaced | done hsource hplaced => exact (hplace hsource hplaced).elim

end Ends

theorem View.Lawful.source_before (hview : view.Lawful) {path : Text} {f : view.File}
    {source : List UInt8} (hpath : sourcePath? argument = some path)
    (hsource : host.source argument before = .ok source) (hfile : view.file? before path = some f) :
    view.contents before f = some source := by
  apply hview.read_contents path before source f _ hfile
  unfold Host.source Host.readSource at hsource
  rwa [hpath] at hsource

/-- A run hands out all that its source yields or nothing at all, on every host that obeys the laws
of files. -/
theorem execute_writes_whole_or_nothing (hview : view.Lawful) (o : Options)
    (argument : Option Text) (before : σ) :
    WholeOrNothing view o argument before ((execute host o argument).run before).2
      ((execute host o argument).run before).1 := by
  obtain ⟨result, after, hends⟩ := exists_ends host o argument before
  have htouches := hends.touches hview
  rw [hview.execute_of_ends hends]
  cases result with
  | error failure =>
    exact {
      status := .inr rfl
      succeeds_iff := hends.status_iff
      source_before _ _ _ := hview.source_before
      whole := nofun
      nothing _ := ⟨rfl, ⟨failure, rfl⟩, fun dump =>
        (hview.printing dump).execute_of_ends (hends.printing dump)⟩
      emptied _ _ hread := by
        refine ⟨fun path handle hpath hroom => (hends.emptied hview hread hpath hroom).1, ?_⟩
        rintro f ⟨path, handle, hpath, hroom, hfile⟩
        exact (hends.emptied hview hread hpath hroom).2 f hfile
      others _ := htouches.others
      kept _ _ := htouches.kept
      added _ _ := htouches.added
      untouched _ := hends.untouched }
  | ok outcome =>
    have hzero : outcome.status = 0 := by
      cases hends
      rfl
    have hone : outcome.status ≠ 1 := by
      rw [hzero]
      decide
    exact {
      status := .inl hzero
      succeeds_iff := hends.status_iff
      source_before _ _ _ := hview.source_before
      whole _ _ _ _ := hends.whole hview
      nothing h := absurd h hone
      emptied h := absurd h hone
      others _ := htouches.others
      kept _ _ := htouches.kept
      added _ _ := htouches.added
      untouched _ := hends.untouched }

/-- A source that is replaced by its own words, under another of its names. -/
theorem execute_writes_whole_or_nothing_in_place :
    let t := FileTree.ofFiles [(ofString "nop.s", (ofString "nop").toBytes)]
    let o : Options := { output := ofString "/tmp/run-000001/nop.s", format := ofString "bin" }
    let finish := (execute (FileTree.host true []) o (some (ofString "nop.s"))).run t
    (FileTree.view true []).Lawful ∧ finish.1.status = 0 ∧ finish.1.output = [] ∧
      finish.2.contents? (FileTree.workplace ++ [ofString "nop.s"]) =
        some [0x13, 0x00, 0x00, 0x00] := by
  intro t o finish
  have hlawful := FileTree.lawful true []
  have hrun := execute_writes_whole_or_nothing hlawful o (some (ofString "nop.s")) t
  have hroom : (FileTree.host true []).room (ofString "/tmp/run-000001/nop.s") t =
      .ok (FileTree.workplace ++ [ofString "nop.s"]) := rfl
  have haccepts : Accepts (FileTree.host true []) o (some (ofString "nop.s")) t
      (ofString "nop").toBytes .bin ⟨[⟨0, 0x13⟩], .empty⟩ := by
    refine ⟨rfl, fun path hpath => ?_, rfl, rfl⟩
    cases hpath
    exact ⟨_, hroom⟩
  have hallowed : ¬ (FileTree.host true []).Refuses o t := fun h => by cases h.shown
  have hstatus := hrun.succeeds_iff.2 ⟨hallowed, _, _, _, haccepts⟩
  obtain ⟨houtput, -, -, -, hcontents⟩ := hrun.whole hstatus _ _ _ haccepts
  have hkept : FileTree.workplace ++ [ofString "nop.s"] ≠ Location.null := by decide
  exact ⟨hlawful, hstatus, houtput, hcontents _ ⟨_, _, rfl, hroom, if_neg hkept⟩⟩

/-- Nothing is wrong with the source, the format and the output, but it is binary and would be shown
on a terminal. -/
theorem execute_refuses_terminal :
    let host := FileTree.host true (ofString "nop").toBytes
    let t := FileTree.ofFiles []
    let o : Options := { format := ofString "bin" }
    ¬ (((execute host o none).run t).1.status = 0 ↔
      ∃ source r p, Accepts host o none t source r p) := by
  intro host t o hiff
  have haccepts : Accepts host o none t (ofString "nop").toBytes .bin ⟨[⟨0, 0x13⟩], .empty⟩ :=
    ⟨rfl, nofun, rfl, rfl⟩
  have hrefuses : host.Refuses o t := ⟨rfl, rfl, rfl⟩
  have hends : Ends host o none t (.error .terminal) t := .refused rfl hrefuses
  have hstatus := hiff.2 ⟨_, _, _, haccepts⟩
  rw [(FileTree.lawful true _).execute_of_ends hends] at hstatus
  cases hstatus

end Rv32i.Command
