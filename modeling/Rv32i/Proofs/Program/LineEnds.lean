import Mathlib.Data.List.Forall2
import Rv32i.Program
import Rv32i.Proofs.Source.Fields
import Rv32i.Proofs.Text.Glyph

/-!
# Line ends

The blanks at the ends of a line do not matter, not even for what is reported of it. A carriage
return before a line feed is one of them, so a source is assembled alike with either kind of line
end, wherever else it has carriage returns.
-/

set_option autoImplicit false

namespace Rv32i

def Glyph.withReturn (g : Glyph) : Text :=
  if g = .scalar '\n' then [.scalar '\r', .scalar '\n'] else [g]

def Text.withReturns (t : Text) : Text := t.flatMap Glyph.withReturn

def bytesWithReturns (bytes : List UInt8) : List UInt8 :=
  bytes.flatMap fun b => if b = 0x0A then [0x0D, 0x0A] else [b]

section Lines

theorem Text.withReturns_newline (t : Text) :
    Text.withReturns (.scalar '\n' :: t) = .scalar '\r' :: .scalar '\n' :: t.withReturns := rfl

theorem Text.withReturns_cons {g : Glyph} (h : g ≠ .scalar '\n') (t : Text) :
    Text.withReturns (g :: t) = g :: t.withReturns := by
  rw [Text.withReturns, List.flatMap_cons, Glyph.withReturn, if_neg h]
  rfl

theorem Text.splitOn_newline (t : Text) :
    List.splitOn (.scalar '\n') (.scalar '\n' :: t) = [] :: t.splitOn (.scalar '\n') := by
  rw [List.splitOn_cons_eq_if_modifyHead, if_pos BEq.rfl]

theorem Text.splitOn_cons {g : Glyph} (h : g ≠ .scalar '\n') {t first : Text} {rest : List Text}
    (hsplit : t.splitOn (.scalar '\n') = first :: rest) :
    List.splitOn (.scalar '\n') (g :: t) = (g :: first) :: rest := by
  rw [List.splitOn_cons_eq_if_modifyHead, if_neg (by simpa using h), hsplit, List.modifyHead_cons]

/-- The second text may have a carriage return at its end that the first one has not. -/
def UpToReturn (piece piece' : Text) : Prop := piece' = piece ∨ piece' = piece ++ [.scalar '\r']

theorem UpToReturn.trim_eq {piece piece' : Text} (h : UpToReturn piece piece') :
    piece.trim = piece'.trim := by
  have hreturn : Text.Blank [.scalar '\r'] := by
    intro g hg
    rw [List.mem_singleton.1 hg]
    rfl
  rcases h with rfl | rfl
  · rfl
  · rw [Text.trim_append_blank hreturn]

theorem upToReturn_dropReturn (piece : Text) : UpToReturn piece.dropReturn piece := by
  unfold Text.dropReturn
  split
  · next hlast => exact .inr (List.dropLast_append_getLast? _ hlast).symm
  · exact .inl rfl

theorem Text.splitOn_withReturns (t : Text) :
    List.Forall₂ UpToReturn (t.splitOn (.scalar '\n')) (t.withReturns.splitOn (.scalar '\n')) := by
  induction t with
  | nil => exact .cons (.inl rfl) .nil
  | cons g t ih =>
    by_cases hg : g = .scalar '\n'
    · rw [hg, Text.withReturns_newline, Text.splitOn_newline,
        Text.splitOn_cons (g := .scalar '\r') (by decide) (Text.splitOn_newline _)]
      exact .cons (.inr rfl) ih
    · generalize hpieces : List.splitOn (.scalar '\n') t = pieces at ih
      generalize hpieces' : List.splitOn (.scalar '\n') (Text.withReturns t) = pieces' at ih
      cases ih with
      | nil => exact absurd hpieces (List.splitOn_ne_nil _ t)
      | cons hfirst hrest =>
        rw [Text.withReturns_cons hg, Text.splitOn_cons hg hpieces, Text.splitOn_cons hg hpieces']
        refine .cons ?_ hrest
        rcases hfirst with rfl | rfl
        · exact .inl rfl
        · exact .inr rfl

theorem Text.map_trim_lines (t : Text) :
    t.lines.map Text.trim = (t.splitOn (.scalar '\n')).map Text.trim := by
  rw [Text.lines, List.map_map]
  apply List.map_congr_left
  exact fun piece _ => (upToReturn_dropReturn piece).trim_eq

theorem Text.map_trim_lines_withReturns (t : Text) :
    t.withReturns.lines.map Text.trim = t.lines.map Text.trim := by
  rw [Text.map_trim_lines, Text.map_trim_lines]
  symm
  rw [← List.forall₂_eq_eq_eq, List.forall₂_map_left_iff, List.forall₂_map_right_iff]
  exact (Text.splitOn_withReturns t).imp fun _ _ => UpToReturn.trim_eq

end Lines

section Trimmed

theorem Text.withoutComment_trim (raw : Text) : raw.trim.withoutComment = raw.withoutComment := by
  obtain ⟨a, b, hraw, ha, hb⟩ := Text.exists_blank_trim raw
  have hunmarked {s : Text} (hs : s.Blank) : .scalar '#' ∉ s := fun hmark =>
    Bool.false_ne_true (hs _ hmark)
  change raw.trim.beforeComment.trim = raw.beforeComment.trim
  conv_rhs => rw [hraw]
  rw [List.append_assoc, Text.beforeComment_append (hunmarked ha), Text.trim_blank_append ha]
  by_cases hmark : .scalar '#' ∈ raw.trim
  · have hcut : Text.beforeComment (raw.trim ++ b) = raw.trim.beforeComment :=
      (Text.takeWhile_append_of_mem hmark b).1
    rw [hcut]
  · rw [Text.beforeComment_append hmark, Text.beforeComment_of_not_mem (hunmarked hb),
      Text.trim_append_blank hb, Text.beforeComment_of_not_mem hmark]

theorem Statement.ofLine_trim (raw : Text) : ofLine raw.trim = ofLine raw := by
  rw [ofLine, Text.withoutComment_trim, ofLine]

theorem Fault.locate_trim (f : Fault) (line : Nat) (raw : Text) :
    f.locate line raw.trim = f.locate line raw := by
  rw [locate, Text.trim_trim, locate]

theorem Survey.read_trim (s : Survey) (raw : Text) : s.read raw.trim = s.read raw := by
  simp only [read, step, Statement.ofLine_trim, Fault.locate_trim]

theorem Emission.read_trim (symbols : SymbolTable) (e : Emission) (raw : Text) :
    read symbols e raw.trim = read symbols e raw := by
  simp only [read, step, Line.parse, Statement.ofLine_trim, Fault.locate_trim]

/-- The result of a run is the same without the blanks at the ends of the lines. -/
theorem Program.assemble_map_trim (lines : List Text) :
    assemble (lines.map Text.trim) = assemble lines := by
  have hsurvey : survey (lines.map Text.trim) = survey lines := by
    simp only [survey, List.foldlM_map, Survey.read_trim]
  have hemit (symbols : SymbolTable) : emit symbols (lines.map Text.trim) = emit symbols lines := by
    simp only [emit, List.foldlM_map, Emission.read_trim]
  simp only [assemble, hsurvey, hemit]

end Trimmed

section Bytes

theorem bytesWithReturns_append (bytes bytes' : List UInt8) :
    bytesWithReturns (bytes ++ bytes') = bytesWithReturns bytes ++ bytesWithReturns bytes' :=
  List.flatMap_append

theorem bytesWithReturns_of_not_mem {bytes : List UInt8} (h : 0x0A ∉ bytes) :
    bytesWithReturns bytes = bytes := by
  induction bytes with
  | nil => rfl
  | cons b bytes ih =>
    rw [List.mem_cons, not_or] at h
    rw [bytesWithReturns, List.flatMap_cons, if_neg (Ne.symm h.1)]
    exact congrArg (b :: ·) (ih h.2)

theorem Glyph.toBytes_withReturn {g : Glyph} (h : Text.Decoded [g]) :
    g.withReturn.toBytes = bytesWithReturns g.toBytes := by
  by_cases hg : g = .scalar '\n'
  · rw [hg]
    rfl
  · rw [withReturn, if_neg hg, bytesWithReturns_of_not_mem]
    · exact List.append_nil _
    · intro hmem
      have hfeed := (h.mem_toBytes_iff (c := '\n') (by decide)).1 (List.mem_append_left _ hmem)
      exact hg (List.mem_singleton.1 hfeed).symm

namespace Text

theorem toBytes_withReturns {t : Text} (h : t.Decoded) :
    t.withReturns.toBytes = bytesWithReturns t.toBytes := by
  induction t with
  | nil => rfl
  | cons g t ih =>
    have hg : Decoded [g] := Decoded.of_append_left (s := [g]) h
    have hcons : withReturns (g :: t) = g.withReturn ++ withReturns t := List.flatMap_cons
    rw [hcons, toBytes_append, Glyph.toBytes_withReturn hg, ih (decoded_cons.1 h).1, toBytes_cons,
      bytesWithReturns_append]

theorem withReturns_eq_intercalate (t : Text) :
    t.withReturns = [Glyph.scalar '\r', .scalar '\n'].intercalate (t.splitOn (.scalar '\n')) := by
  induction t with
  | nil => rfl
  | cons g t ih =>
    have hne := List.splitOn_ne_nil (.scalar '\n') t
    by_cases hg : g = .scalar '\n'
    · rw [hg, withReturns_newline, splitOn_newline, List.intercalate_cons_of_ne_nil hne, ih]
      rfl
    · obtain ⟨first, rest, hsplit⟩ := List.exists_cons_of_ne_nil hne
      rw [withReturns_cons hg, splitOn_cons hg hsplit, ih, hsplit]
      by_cases hrest : rest = []
      · rw [hrest, List.intercalate_singleton, List.intercalate_singleton]
      · rw [List.intercalate_cons_of_ne_nil hrest, List.intercalate_cons_of_ne_nil hrest]
        rfl

theorem Decoded.withReturns {t : Text} (h : t.Decoded) : t.withReturns.Decoded := by
  rw [withReturns_eq_intercalate]
  apply Decoded.intercalate (by decide)
  · exact fun g hg => ⟨'\n', List.mem_singleton.1 hg⟩
  · exact fun piece hpiece => h.of_isInfix (infix_of_mem_splitOnP hpiece)

/-- Line feeds are found in the bytes of a text where they are in the text. -/
theorem ofBytes_withReturns (bytes : List UInt8) :
    ofBytes (bytesWithReturns bytes) = (ofBytes bytes).withReturns := by
  have hdecoded := decoded_ofBytes bytes
  have hreturns := hdecoded.withReturns
  rwa [Decoded, toBytes_withReturns hdecoded, toBytes_ofBytes] at hreturns

end Text

end Bytes

/-- A source has the same program or the same fault, reported with the same line and text, after a
carriage return is put before each of its line feeds. -/
theorem Program.ofSource_withReturns (source : List UInt8) :
    ofSource (Text.ofBytes (bytesWithReturns source)) = ofSource (Text.ofBytes source) := by
  rw [Text.ofBytes_withReturns, ofSource, ← assemble_map_trim, Text.map_trim_lines_withReturns,
    assemble_map_trim, ofSource]

end Rv32i
