import Rv32i.Proofs.Source.Line

/-!
# Lines are read by their fields

The label of a line and its instruction depend on the fields before the comment only, wherever the
blanks between them are. The label is cut out of the first field alone.
-/

set_option autoImplicit false

namespace Rv32i

namespace Text

/-- The first mark inside the first part is the first mark of the whole. -/
theorem takeWhile_append_of_mem {s : Text} {mark : Glyph} (h : mark ∈ s) (t : Text) :
    (s ++ t).takeWhile (· != mark) = s.takeWhile (· != mark) ∧
      (s ++ t).dropWhile (· != mark) = s.dropWhile (· != mark) ++ t := by
  induction s with
  | nil => cases h
  | cons g s ih =>
    by_cases hg : g = mark
    · simp [hg]
    · have hs : mark ∈ s := (List.mem_cons.1 h).resolve_left (Ne.symm hg)
      simp [hg, ih hs]

end Text

namespace Statement

def ofFields : List Text → Except Fault (Option Text × List Text)
  | [] => .ok (none, [])
  | first :: others =>
    if hasColon first then
      let label := first.takeWhile (· != .scalar ':')
      let rest := (first.dropWhile (· != .scalar ':')).drop 1
      if isLabel label then .ok (some label, Text.fields rest ++ others)
      else .error (.malformedLabel label)
    else .ok (none, first :: others)

theorem ofLine_eq_ofFields (raw : Text) :
    (ofLine raw).map (fun statement => (statement.label, statement.body.fields)) =
      ofFields raw.beforeComment.fields := by
  have hhead := Text.head?_trim raw.beforeComment
  have hfields := raw.fields_withoutComment
  change ∀ g ∈ raw.withoutComment.head?, g.isBlank = false at hhead
  rw [ofLine, ← hfields]
  generalize raw.withoutComment = t at hhead
  unfold split
  cases h : t.fields with
  | nil =>
    rw [List.head?_nil, Option.any_none, if_neg Bool.false_ne_true]
    simp [ofFields, Except.map, h]
  | cons first others =>
    rw [List.head?_cons, Option.any_some]
    by_cases hcolon : hasColon first = true
    · obtain ⟨rest, rfl, hrest, hblank⟩ := Text.exists_first_field hhead h
      have hmem : .scalar ':' ∈ first := by simpa [hasColon] using hcolon
      obtain ⟨hlabel, hbody⟩ := Text.takeWhile_append_of_mem hmem rest
      -- The colon stands in the first field, so something is there to drop.
      have hdrop : (first.dropWhile (· != .scalar ':') ++ rest).drop 1 =
          (first.dropWhile (· != .scalar ':')).drop 1 ++ rest := by
        apply List.drop_append_of_le_length
        rw [Nat.one_le_iff_ne_zero, Ne, List.length_eq_zero_iff, List.dropWhile_eq_nil_iff]
        exact fun hall => absurd (hall _ hmem) (by simp)
      simp only [hcolon, if_true, hlabel, hbody, hdrop, ofFields]
      split
      · simp [Except.map, Text.fields_trim, Text.fields_append_of_head? _ hblank, hrest]
      · rfl
    · simp [hcolon, ofFields, Except.map, h]

section Read

variable {raw : Text}

theorem ofLine_of_ofFields {label : Option Text} {fields : List Text}
    (h : ofFields raw.beforeComment.fields = .ok (label, fields)) :
    ∃ body, ofLine raw = .ok ⟨label, body⟩ ∧ body.fields = fields := by
  rw [← ofLine_eq_ofFields] at h
  cases hline : ofLine raw with
  | error fault =>
    rw [hline] at h
    cases h
  | ok statement =>
    rw [hline] at h
    cases h
    exact ⟨statement.body, rfl, rfl⟩

theorem ofLine_of_ofFields_error {fault : Fault}
    (h : ofFields raw.beforeComment.fields = .error fault) : ofLine raw = .error fault := by
  rw [← ofLine_eq_ofFields] at h
  cases hline : ofLine raw with
  | error fault' =>
    rw [hline] at h
    cases h
    rfl
  | ok statement =>
    rw [hline] at h
    cases h

end Read

end Statement

theorem Instruction.parse_congr {body body' : Text} (h : body.fields = body'.fields) :
    parse body = parse body' := by
  unfold parse
  rw [h]

/-- Lines with the same fields are read alike. -/
theorem Line.parse_congr {raw raw' : Text}
    (h : raw.beforeComment.fields = raw'.beforeComment.fields) : parse raw = parse raw' := by
  unfold parse
  cases hfields : Statement.ofFields raw.beforeComment.fields with
  | error fault =>
    rw [Statement.ofLine_of_ofFields_error hfields,
      Statement.ofLine_of_ofFields_error (h ▸ hfields)]
  | ok result =>
    obtain ⟨body, hline, hbody⟩ := Statement.ofLine_of_ofFields hfields
    obtain ⟨body', hline', hbody'⟩ := Statement.ofLine_of_ofFields (h ▸ hfields)
    rw [hline, hline', ok_bind, ok_bind, Instruction.parse_congr (hbody.trans hbody'.symm)]

end Rv32i
