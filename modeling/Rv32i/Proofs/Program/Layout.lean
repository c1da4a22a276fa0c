import Rv32i.Proofs.Program.Simulation
import Rv32i.Proofs.Text.Glyph

/-!
# The layout of a source does not matter

Of the lines of a source only the fields before the comments count, and only of lines that have any.
Two sources with the same fields are assembled to the same program or fail for the same reason, on
whichever lines.
-/

set_option autoImplicit false

namespace Rv32i

open Text (ofString)

namespace Program

def layout (lines : List Text) : List (List Text) :=
  (lines.filter fun raw => !raw.beforeComment.all Glyph.isBlank).map fun raw =>
    raw.beforeComment.fields

theorem layout_eq_filter (lines : List Text) :
    layout lines = (lines.map fun raw => raw.beforeComment.fields).filter (!·.isEmpty) := by
  have hvacant (raw : Text) :
      (!raw.beforeComment.all Glyph.isBlank) = !raw.beforeComment.fields.isEmpty := by
    rw [Bool.not_inj_iff, Bool.eq_iff_iff, List.all_eq_true, List.isEmpty_iff,
      Text.fields_eq_nil_iff]
    rfl
  simp only [layout, hvacant, List.filter_map, Function.comp_def]

def byteLayout (lines : List (List UInt8)) : List (List (List UInt8)) :=
  (layout (lines.map Text.ofBytes)).map fun fields => fields.map Text.toBytes

theorem decoded_of_mem_layout {lines : List (List UInt8)} {fields : List Text}
    (h : fields ∈ layout (lines.map Text.ofBytes)) : ∀ f ∈ fields, f.Decoded := by
  intro f hf
  obtain ⟨raw, hraw, rfl⟩ := List.mem_map.1 h
  obtain ⟨bytes, -, rfl⟩ := List.mem_map.1 (List.mem_filter.1 hraw).1
  have hbefore : (Text.ofBytes bytes).beforeComment <:+: Text.ofBytes bytes :=
    (List.takeWhile_prefix _).isInfix
  exact (Text.decoded_ofBytes bytes).of_isInfix ((Text.infix_of_mem_fields hf).trans hbefore)

/-- Fields that are cut out of decoded lines can be told by their bytes. -/
theorem layout_eq_of_bytes (lines : List (List UInt8)) : layout (lines.map Text.ofBytes) =
    (byteLayout lines).map fun fields => fields.map Text.ofBytes := by
  rw [byteLayout, List.map_map]
  conv_lhs => rw [← List.map_id (layout _)]
  apply List.map_congr_left
  intro fields hfields
  rw [Function.comp_apply, List.map_map]
  conv_lhs => rw [id_eq, ← List.map_id fields]
  apply List.map_congr_left
  intro f hf
  exact (decoded_of_mem_layout hfields f hf).symm

/-- The same kind of fault for the same reason. Which line has defined a label before is left open. -/
def SameReason (fault fault' : Fault) : Prop :=
  fault.kind = fault'.kind ∧ (fault.kind ≠ .duplicateLabel → fault.detail = fault'.detail)

theorem sameReason_refl (fault : Fault) : SameReason fault fault := ⟨rfl, fun _ => rfl⟩

theorem statement_related {raw raw' : Text}
    (h : raw.beforeComment.fields = raw'.beforeComment.fields) :
    Related SameReason (Survey.StatementRenamed id fun _ => True) (Statement.ofLine raw)
      (Statement.ofLine raw') := by
  cases hfields : Statement.ofFields raw.beforeComment.fields with
  | error fault =>
    rw [Statement.ofLine_of_ofFields_error hfields,
      Statement.ofLine_of_ofFields_error (h ▸ hfields)]
    exact .error (sameReason_refl fault)
  | ok result =>
    obtain ⟨body, hline, hbody⟩ := Statement.ofLine_of_ofFields hfields
    obtain ⟨body', hline', hbody'⟩ := Statement.ofLine_of_ofFields (h ▸ hfields)
    rw [hline, hline']
    refine .ok ⟨(congrFun Option.map_id _).symm, ?_, fun _ _ => trivial⟩
    rw [← Line.fields_body_eq_nil_iff hline, ← Line.fields_body_eq_nil_iff hline', hbody, hbody']

theorem symbols_of_renamed_id {s t : Survey} (h : Survey.Renamed id (fun _ => True) s t) :
    t.symbols = s.symbols := by
  have hentries (s : Survey) : s.symbols =
      (s.definitions.map Definition.entry).foldr (fun e table => table.insert e.1 e.2) .empty := by
    rw [List.foldr_map]
    rfl
  rw [hentries s, hentries t, h.definitions]
  rfl

/-- Lines with the same layout are assembled alike. -/
theorem assemble_related {lines lines' : List Text} (h : layout lines = layout lines') :
    Related (Unlocated SameReason) (fun p p' => p.words = p'.words ∧ p.symbols = p'.symbols)
      (assemble lines) (assemble lines') := by
  rw [layout_eq_filter, layout_eq_filter] at h
  have haligned : Aligned Line.Vacant
      (fun raw raw' => raw.beforeComment.fields = raw'.beforeComment.fields) lines lines' :=
    (Aligned.of_filter_map_eq h).imp fun raw hraw => by simpa [Line.Vacant] using hraw
  have hsurvey := survey_related haligned (fun _ _ _ _ hsame => hsame)
    (fun _ _ _ => ⟨rfl, fun hkind => absurd rfl hkind⟩) fun _ _ hfields => statement_related hfields
  apply hsurvey.bind
  intro s t _ _ hst
  rw [symbols_of_renamed_id hst]
  have hemit : Related (Unlocated SameReason) Emission.Alike (emit s.symbols lines)
      (emit s.symbols lines') :=
    emit_related haligned sameReason_refl fun _ _ hfields =>
      .of_eq sameReason_refl (fun _ _ => rfl) (Line.parse_congr hfields)
  apply hemit.bind
  intro e e' _ _ he
  exact .ok ⟨congrArg List.reverse he.words.symm, rfl⟩

/-- Comments, blank lines and the white space around and between fields do not matter: two sources
with the same fields are assembled to the same words and labels, or fail with the same kind of fault
and, unless it is a repeated label, with the same detail. -/
theorem assemble_ignores_layout (lines lines' : List (List UInt8))
    (h : byteLayout lines = byteLayout lines') :
    (∃ p p', assemble (lines.map Text.ofBytes) = .ok p ∧
      assemble (lines'.map Text.ofBytes) = .ok p' ∧ p.words = p'.words ∧ p.symbols = p'.symbols) ∨
    ∃ e e', assemble (lines.map Text.ofBytes) = .error e ∧
      assemble (lines'.map Text.ofBytes) = .error e' ∧
      e.diagnostic.kind = e'.diagnostic.kind ∧
      (e.diagnostic.kind ≠ .duplicateLabel → e.diagnostic.detail = e'.diagnostic.detail) := by
  have hlayout : layout (lines.map Text.ofBytes) = layout (lines'.map Text.ofBytes) := by
    rw [layout_eq_of_bytes, layout_eq_of_bytes, h]
  have hrelated := assemble_related hlayout
  cases hp : assemble (lines.map Text.ofBytes) with
  | ok p =>
    obtain ⟨p', hp'⟩ := hrelated.ok_iff.1 ⟨p, hp⟩
    obtain ⟨hwords, hsymbols⟩ := hrelated.rel_of_ok hp hp'
    exact .inl ⟨p, p', rfl, hp', hwords, hsymbols⟩
  | error e =>
    obtain ⟨e', he', hkind, hdetail⟩ := hrelated.exists_error hp
    exact .inr ⟨e, e', rfl, he', hkind, hdetail⟩

/-- A loop with tabs, a no-break space, and comments with bytes that belong to no character. -/
theorem assemble_ignores_layout_loop :
    let lines := ["loop: addi x1, x1, 1", "bne x1, x2, loop"].map fun s => (ofString s).toBytes
    let lines' := [(ofString "# count").toBytes ++ [0xff],
      (ofString "\tloop:\u00a0addi  x1, x1,\t1 # up").toBytes ++ [0xc3], [],
      (ofString "  bne x1, x2, loop  ").toBytes]
    ∃ p p', assemble (lines.map Text.ofBytes) = .ok p ∧
      assemble (lines'.map Text.ofBytes) = .ok p' ∧ p.words = p'.words ∧ p.symbols = p'.symbols := by
  intro lines lines'
  have hlayout : byteLayout lines = byteLayout lines' := by decide
  have hok : (assemble (lines.map Text.ofBytes)).toOption.isSome = true := by decide
  obtain ⟨p, hp⟩ := exists_eq_ok hok
  rcases assemble_ignores_layout lines lines' hlayout with hsame | ⟨e, e', he, -⟩
  · exact hsame
  · cases hp.symm.trans he

end Program

end Rv32i
