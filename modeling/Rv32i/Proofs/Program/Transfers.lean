import Rv32i.Proofs.Disassembly
import Rv32i.Proofs.Program.Specification

/-!
# Branches and jumps reach their labels

Instructions and labels stand at multiples of four, so the way from one to the other is never odd. It
is encoded exactly if the format has room for it, and then the word, from its own address, leads to
the address of the label. Disassembly shows that address in its comment.
-/

set_option autoImplicit false

namespace Rv32i

open Text (ofString)

namespace Transfer

def format : Transfer → Format
  | branch => .b
  | jump => .j

def registers : Transfer → Nat
  | branch => 2
  | jump => 1

def reach : Transfer → Int
  | branch => 4096
  | jump => 1048576

def Reaches (t : Transfer) (distance : Int) : Prop :=
  -t.reach ≤ distance ∧ distance ≤ t.reach - 2

instance (t : Transfer) (distance : Int) : Decidable (t.Reaches distance) :=
  inferInstanceAs (Decidable (_ ∧ _))

theorem checkRange_of_reaches {t : Transfer} {distance : Int} (h : t.Reaches distance) :
    checkRange distance (-t.reach) (t.reach - 1) = .ok () := by
  obtain ⟨hlow, hhigh⟩ := h
  apply checkRange_eq_ok.2
  omega

/-- One more offset is let through than can be reached, but that one is odd. -/
theorem checkRange_of_not_reaches {t : Transfer} {distance : Int} (heven : distance % 2 = 0)
    (h : ¬ t.Reaches distance) : checkRange distance (-t.reach) (t.reach - 1) =
      .error (.outOfRange distance (-t.reach) (t.reach - 1)) := by
  apply if_neg
  unfold Reaches at h
  cases t with
  | branch =>
    simp only [reach] at h ⊢
    omega
  | jump =>
    simp only [reach] at h ⊢
    omega

end Transfer

namespace Descriptor

variable {d : Descriptor} {t : Transfer} {pc : Address} {symbols : SymbolTable}

/-- With its registers in order and an even offset, only the range is left to check. -/
theorem resolve_transfer (hd : d.format = t.format) {registers : List Text}
    (hcount : registers.length = t.registers)
    (hregisters : ∀ r ∈ registers, ∃ n, Register.parse r = .ok n) {target : Text} {offset : Int}
    (htarget : Target.resolve target pc symbols = .ok offset) (heven : offset % 2 = 0) :
    ∃ p, (d.fieldsOf p).immediate = offset ∧ d.resolve (registers ++ [target]) pc symbols =
      (checkRange offset (-t.reach) (t.reach - 1)).map fun _ => p := by
  have hcheck (t : Transfer) : checkEven t offset = .ok () := if_pos heven
  cases t with
  | branch =>
    obtain ⟨rs1, rs2, rfl⟩ := List.length_eq_two.1 hcount
    obtain ⟨a, ha⟩ := hregisters rs1 (by simp)
    obtain ⟨b, hb⟩ := hregisters rs2 (by simp)
    refine ⟨.b a b offset, rfl, ?_⟩
    simp only [resolve, hd, Transfer.format, List.cons_append, List.nil_append, Payload.resolveB,
      ha, hb, htarget, hcheck, ok_bind]
    rfl
  | jump =>
    obtain ⟨rd, rfl⟩ := List.length_eq_one_iff.1 hcount
    obtain ⟨a, ha⟩ := hregisters rd (by simp)
    refine ⟨.j a offset, rfl, ?_⟩
    simp only [resolve, hd, Transfer.format, List.cons_append, List.nil_append, Payload.resolveJ,
      ha, htarget, hcheck, ok_bind]
    rfl

theorem fixed_of_transfer (hd : d ∈ table) (hformat : d.format = t.format) : d.fixed = none := by
  have hall : ∀ d ∈ table, d.format = .b ∨ d.format = .j → d.fixed = none := by decide
  apply hall d hd
  cases t with
  | branch => exact .inl hformat
  | jump => exact .inr hformat

end Descriptor

def Text.commentOf (t : Text) : Text := t.dropWhile (· != .scalar '#')

theorem Text.commentOf_append {t : Text} (ht : .scalar '#' ∉ t) (rest : Text) :
    Text.commentOf (t ++ rest) = rest.commentOf := by
  apply List.dropWhile_append_of_pos
  intro g hg
  simpa using fun h : g = .scalar '#' => ht (h ▸ hg)

namespace Word

variable {w : Word} {f : Fields} {t : Transfer}

/-- The mnemonics without operands have words of another format. -/
theorem lookup_constants_of_transfer (hw : Fields.ofWord? w = some f)
    (hformat : f.format = t.format) : Descriptor.constants.lookup w = none := by
  have hall : ∀ c ∈ Descriptor.constants, (Fields.ofWord? c.1).map Fields.format = some .i := by
    decide
  rw [List.lookup_eq_none_iff]
  intro c hc
  rw [bne_iff_ne]
  rintro rfl
  have hi := hall c hc
  rw [hw, Option.map_some, Option.some.injEq, hformat] at hi
  cases t with
  | branch => cases hi
  | jump => cases hi

theorem commentOf_disassemble (hw : Fields.ofWord? w = some f) (hformat : f.format = t.format)
    (hdescribes : ∃ d ∈ Descriptor.table, d.describes f = true) (pc : Address) :
    (w.disassemble pc).commentOf =
      ofString "# 0x" ++ Numeral.hexadecimal (pc + BitVec.ofInt 32 f.immediate).toNat := by
  obtain ⟨d', hd', hdescribes'⟩ := hdescribes
  have hcomment : (f.comment pc).commentOf =
      ofString "# 0x" ++ Numeral.hexadecimal (pc + BitVec.ofInt 32 f.immediate).toNat := by
    unfold Fields.comment
    rw [hformat]
    cases t with
    | branch => rfl
    | jump => rfl
  unfold disassemble
  simp only [lookup_constants_of_transfer hw hformat, hw]
  cases hfind : Descriptor.table.find? (·.describes f) with
  | none => exact absurd hdescribes' (List.find?_eq_none.1 hfind d' hd')
  | some d =>
    have hplain := (Descriptor.spelled_of_mem (List.mem_of_find?_eq_some hfind)).1
    dsimp only
    rw [Descriptor.write_eq, Text.commentOf_append (Descriptor.mark_not_mem_written hplain),
      hcomment]

end Word

namespace Program

structure TransferLine (lines : List Text) (i : Nat) (t : Transfer) (d : Descriptor)
    (operands : List Text) (target : Text) : Prop where
  line : ∃ raw label, lines[i]? = some raw ∧
    Line.parse raw = .ok ⟨label, some ⟨d, operands⟩⟩
  format : d.format = t.format
  operands : ∃ registers, operands = registers ++ [target] ∧ registers.length = t.registers ∧
    ∀ r ∈ registers, ∃ n, Register.parse r = .ok n

/-- From the first address the distance leads to the second, also on the circle of addresses. -/
theorem add_distance (pc address : Address) :
    pc + BitVec.ofInt 32 (address.toNat - pc.toNat) = address := by
  have hnat (a : Address) : BitVec.ofInt 32 a.toNat = a := by simp
  have hsum : (pc.toNat : Int) + (address.toNat - pc.toNat) = address.toNat := by omega
  conv_lhs => lhs; rw [← hnat pc]
  rw [← BitVec.ofInt_add, hsum, hnat]

section Line

variable {lines : List Text} {s : Survey} {i : Nat} {t : Transfer} {d : Descriptor}
variable {operands : List Text} {target : Text} {address : Address}

theorem TransferLine.mem_table (h : TransferLine lines i t d operands target) :
    d ∈ Descriptor.table := by
  obtain ⟨raw, label, -, hparse⟩ := h.line
  exact Line.mem_table_of_parse hparse

/-- All that is checked of a transfer to a label is whether the distance fits. -/
theorem TransferLine.resolve_eq (h : TransferLine lines i t d operands target) {pc : Address}
    {symbols : SymbolTable} (haddress : symbols.get? target = some address)
    (heven : ((address.toNat : Int) - pc.toNat) % 2 = 0) :
    ∃ p, (d.fieldsOf p).immediate = address.toNat - pc.toNat ∧
      d.resolve operands pc symbols =
        (checkRange (address.toNat - pc.toNat) (-t.reach) (t.reach - 1)).map fun _ => p := by
  obtain ⟨registers, rfl, hcount, hregisters⟩ := h.operands
  have htarget : Target.resolve target pc symbols = .ok (address.toNat - pc.toNat) := by
    simp only [Target.resolve, haddress]
  exact Descriptor.resolve_transfer h.format hcount hregisters htarget heven

theorem TransferLine.encode_of_not_reaches (h : TransferLine lines i t d operands target)
    {pc : Address} {symbols : SymbolTable} (haddress : symbols.get? target = some address)
    (heven : ((address.toNat : Int) - pc.toNat) % 2 = 0)
    (hreach : ¬ t.Reaches (address.toNat - pc.toNat)) :
    d.encode operands pc symbols =
      .error (.outOfRange (address.toNat - pc.toNat) (-t.reach) (t.reach - 1)) := by
  have hfixed := Descriptor.fixed_of_transfer h.mem_table h.format
  obtain ⟨p, -, hresolve⟩ := h.resolve_eq haddress heven
  rw [Descriptor.encode_of_written hfixed, hresolve,
    Transfer.checkRange_of_not_reaches heven hreach]
  rfl

/-- The word holds the distance, and disassembly adds it to the address of the word again. -/
theorem TransferLine.encode_of_reaches (h : TransferLine lines i t d operands target)
    {pc : Address} {symbols : SymbolTable} (haddress : symbols.get? target = some address)
    (heven : ((address.toNat : Int) - pc.toNat) % 2 = 0)
    (hreach : t.Reaches (address.toNat - pc.toNat)) :
    ∃ w f, d.encode operands pc symbols = .ok w ∧ Fields.ofWord? w = some f ∧
      f.immediate = address.toNat - pc.toNat ∧
      (w.disassemble pc).commentOf = ofString "# 0x" ++ Numeral.hexadecimal address.toNat := by
  have hfixed := Descriptor.fixed_of_transfer h.mem_table h.format
  have hwell := Descriptor.wellFormed_of_mem h.mem_table
  obtain ⟨p, himmediate, hresolve⟩ := h.resolve_eq haddress heven
  rw [Transfer.checkRange_of_reaches hreach] at hresolve
  obtain ⟨hformat, hfits⟩ := Descriptor.resolve_ok hresolve
  have hdecode := Fields.ofWord?_pack hwell hformat hfits
  have hagrees := Descriptor.agrees_fieldsOf hwell hformat
  have hcomment := Word.commentOf_disassemble hdecode
    ((Descriptor.format_fieldsOf p).trans h.format)
    ⟨d, h.mem_table, Descriptor.describes_iff.2 ⟨hfixed, hagrees⟩⟩ pc
  rw [himmediate, add_distance] at hcomment
  refine ⟨d.pack p, d.fieldsOf p, ?_, hdecode, himmediate, hcomment⟩
  exact (Descriptor.encode_eq_ok_of_written hfixed).2 ⟨p, hresolve, rfl⟩

/-- Instructions and labels are both at multiples of four. -/
theorem distance_even (hs : survey lines = .ok s) (haddress : s.symbols.get? target = some address)
    (k : Nat) : ((address.toNat : Int) - (wordAddress k).toNat) % 2 = 0 := by
  obtain ⟨j, -, rfl⟩ := (survey_after hs).get?_symbols.1 haddress
  have hpc := wordAddress_aligned k
  have hlabel := wordAddress_aligned (instructionsBefore lines j)
  omega

end Line

/-- A branch or jump to a defined label fails only for a distance that its format has no room for.
Otherwise its word leads from its own address to that of the label, disassembly shows the latter,
and this is the word that an assembled program has there. -/
theorem transfer_reaches_label (lines : List Text) (s : Survey) (hs : survey lines = .ok s)
    (i : Nat) (t : Transfer) (d : Descriptor) (operands : List Text) (target : Text)
    (hline : TransferLine lines i t d operands target) (address : Address)
    (haddress : s.symbols.get? target = some address) :
    let pc := wordAddress (instructionsBefore lines i)
    let distance : Int := address.toNat - pc.toNat
    (∀ fault, d.encode operands pc s.symbols = .error fault → fault.kind = .immediateRange) ∧
    ((∃ fault, d.encode operands pc s.symbols = .error fault) ↔ ¬ t.Reaches distance) ∧
    (t.Reaches distance → ∃ w f, d.encode operands pc s.symbols = .ok w ∧
      Fields.ofWord? w = some f ∧ (pc.toNat : Int) + f.immediate = address.toNat ∧
      (∃ digits, (w.disassemble pc).commentOf = ofString "# 0x" ++ digits ∧
        Numeral.value? 16 digits = some address.toNat) ∧
      ∀ p, assemble lines = .ok p → p.words[instructionsBefore lines i]? = some ⟨pc, w⟩) := by
  intro pc distance
  have heven : distance % 2 = 0 := distance_even hs haddress _
  by_cases hreach : t.Reaches distance
  · obtain ⟨w, f, hok, hdecode, himmediate, hcomment⟩ :=
      hline.encode_of_reaches haddress heven hreach
    rw [hok]
    refine ⟨nofun, by simp [hreach], fun _ => ⟨w, f, rfl, hdecode, ?_, ⟨_, hcomment, ?_⟩, ?_⟩⟩
    · omega
    · exact Numeral.value?_digits (by decide) (by decide) _
    · -- The program was encoded under the labels of the survey, and encoding gives one word.
      intro p hp
      obtain ⟨raw, label, hraw, hparse⟩ := hline.line
      obtain ⟨w', hw', hvalue⟩ := (realizes_of_assemble hp).word_at hraw hparse
      rw [symbols_of_assemble hp hs, hok] at hvalue
      cases hvalue
      exact hw'
  · rw [hline.encode_of_not_reaches haddress heven hreach]
    refine ⟨?_, by simp [hreach], fun h => absurd h hreach⟩
    intro fault hfault
    cases hfault
    rfl

theorem transfer_reaches_label_back :
    let lines := ["loop: addi x1, x1, 1", "bne x1, x2, loop"].map ofString
    ∃ s w f, survey lines = .ok s ∧ s.symbols.get? (ofString "loop") = some 0 ∧
      (Descriptor.branch "bne" 0b001).encode (["x1", "x2", "loop"].map ofString) 4 s.symbols =
        .ok w ∧
      Fields.ofWord? w = some f ∧ f.immediate = -4 := by
  intro lines
  have hok : (survey lines).toOption.isSome = true := by decide
  obtain ⟨s, hs⟩ := exists_eq_ok hok
  have haddress : s.symbols.get? (ofString "loop") = some 0 :=
    (survey_after hs).get?_symbols.2 ⟨0, by decide, by decide⟩
  have hparse : (Line.parse (ofString "bne x1, x2, loop")).toOption =
    some ⟨none, some ⟨.branch "bne" 0b001, ["x1", "x2", "loop"].map ofString⟩⟩ := by decide
  have hregisters : ∀ r ∈ ["x1", "x2"].map ofString,
      (Register.parse r).toOption.isSome = true := by decide
  have hline : TransferLine lines 1 .branch (.branch "bne" 0b001)
      (["x1", "x2", "loop"].map ofString) (ofString "loop") :=
    ⟨⟨_, none, rfl, toOption_eq_some.1 hparse⟩, rfl,
      ["x1", "x2"].map ofString, rfl, rfl, fun r hr => exists_eq_ok (hregisters r hr)⟩
  obtain ⟨w, f, hw, hdecode, htarget, -⟩ :=
    (transfer_reaches_label lines s hs 1 .branch _ _ _ hline 0 haddress).2.2 (by decide)
  have hfour : wordAddress (instructionsBefore lines 1) = 4 := by decide
  rw [hfour] at hw htarget
  refine ⟨s, w, f, hs, haddress, hw, hdecode, ?_⟩
  simp only [BitVec.reduceToNat] at htarget
  omega

end Program

end Rv32i
