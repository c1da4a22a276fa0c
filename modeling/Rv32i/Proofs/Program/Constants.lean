import Rv32i.Proofs.Operand
import Rv32i.Proofs.Program.Specification
import Rv32i.Proofs.Word.Layout

/-!
# Mnemonics without operands

The mnemonics `nop`, `ecall` and `ebreak` stand for fixed operands, which are resolved like written
ones. A label named like the fixed immediate therefore takes its place, and the mnemonic keeps its
word exactly as long as no such label has another value.
-/

set_option autoImplicit false

namespace Rv32i

open Text (ofString)

structure Bare where
  name : String
  opcode : BitVec 8
  immediate : String
  value : Nat
  deriving DecidableEq

namespace Bare

def nop : Bare := ⟨"nop", Opcode.immediate, "0", 0⟩

def ecall : Bare := ⟨"ecall", Opcode.system, "0", 0⟩

def ebreak : Bare := ⟨"ebreak", Opcode.system, "1", 1⟩

def all : List Bare := [nop, ecall, ebreak]

def descriptor (b : Bare) : Descriptor := .constant b.name b.opcode b.immediate

def label (b : Bare) : Text := ofString b.immediate

def wordWith (b : Bare) (value : Nat) : Word :=
  Word.packI (BitVec.ofNat 12 value) 0 0 0 (b.opcode.setWidth 7)

def word (b : Bare) : Word := b.wordWith b.value

example : all.map word = [0x13, 0x73, 0x100073] := by decide

def denoted (b : Bare) (symbols : SymbolTable) : Nat :=
  ((symbols.get? b.label).map BitVec.toNat).getD b.value

def Unshadowed (b : Bare) (symbols : SymbolTable) : Prop :=
  ∀ address, symbols.get? b.label = some address → address.toNat = b.value

variable {b : Bare} {symbols : SymbolTable}

theorem denoted_eq_value_iff : b.denoted symbols = b.value ↔ b.Unshadowed symbols := by
  unfold denoted Unshadowed
  cases symbols.get? b.label with
  | none => simp
  | some address => simp

structure Known (b : Bare) : Prop where
  found : Descriptor.find? (ofString b.name) = some b.descriptor
  notLoad : b.opcode ≠ Opcode.load
  trimmed : b.label.trim = b.label
  literal : Literal.parse? b.label = some (b.value : Int)
  short : b.value ≤ 2047

theorem known_of_mem (h : b ∈ all) : b.Known := by
  have hall : ∀ b ∈ all, Descriptor.find? (ofString b.name) = some b.descriptor ∧
      b.opcode ≠ Opcode.load ∧ b.label.trim = b.label ∧
      Literal.parse? b.label = some (b.value : Int) ∧ b.value ≤ 2047 := by decide
  obtain ⟨hfound, hload, htrim, hliteral, hshort⟩ := hall b h
  exact ⟨hfound, hload, htrim, hliteral, hshort⟩

theorem eq_of_wordWith_eq {b b' : Bare} {m n : Nat} (hm : m ≤ 2047) (hn : n ≤ 2047)
    (h : b.wordWith m = b'.wordWith n) : m = n := by
  have himmediate := congrArg Word.immediateI h
  rw [wordWith, wordWith, Word.immediateI_packI, Word.immediateI_packI] at himmediate
  have hnat := congrArg BitVec.toNat himmediate
  rw [BitVec.toNat_ofNat, BitVec.toNat_ofNat] at hnat
  omega

theorem pack_fixed (n : Nat) : b.descriptor.pack (.i 0 0 n) = b.wordWith n := by
  have hshift : b.descriptor.isShift = false := by
    simp [Descriptor.isShift, descriptor, Descriptor.constant]
  rw [Descriptor.pack, Descriptor.immediateBits, hshift]
  simp [wordWith, descriptor, Descriptor.constant]

section Known

variable (h : b.Known)
include h

theorem Known.resolve_immediate (symbols : SymbolTable) :
    Immediate.resolve b.label symbols = .ok (b.denoted symbols : Int) := by
  cases hget : symbols.get? b.label with
  | none => simp [Immediate.resolve, denoted, h.trimmed, hget, h.literal]
  | some address => simp [Immediate.resolve, denoted, h.trimmed, hget]

theorem Known.resolve_fixed (symbols : SymbolTable) (pc : Address) :
    b.descriptor.resolve [ofString "x0", ofString "x0", b.label] pc symbols =
      if b.denoted symbols ≤ 2047 then .ok (.i 0 0 (b.denoted symbols))
      else .error (.outOfRange (b.denoted symbols) (-2048) 2047) := by
  have hload : b.descriptor.isLoad = false := by
    simpa [Descriptor.isLoad, descriptor, Descriptor.constant] using h.notLoad
  have hzero : Register.parse (ofString "x0") = .ok 0 := by
    have hname : Register.ofName? (ofString "x0").trim.lower = some 0 := by decide
    rw [Register.parse, hname]
  have hformat : b.descriptor.format = .i := rfl
  have hrange : (-2048 ≤ (b.denoted symbols : Int) ∧ (b.denoted symbols : Int) ≤ 2047) ↔
      b.denoted symbols ≤ 2047 := by omega
  simp only [Descriptor.resolve, hformat, hload, Payload.resolveI, hzero, h.resolve_immediate,
    Payload.checkShort, checkRange, hrange, bind, Except.bind, Bool.false_eq_true, if_false]
  by_cases hshort : b.denoted symbols ≤ 2047
  · rw [if_pos hshort, if_pos hshort]
    rfl
  · rw [if_neg hshort, if_neg hshort]

/-- The fixed operands go through the same reader as written ones, labels included. -/
theorem Known.encode_eq (symbols : SymbolTable) (pc : Address) :
    b.descriptor.encode [] pc symbols =
      if b.denoted symbols ≤ 2047 then .ok (b.wordWith (b.denoted symbols))
      else .error (.outOfRange (b.denoted symbols) (-2048) 2047) := by
  have heffective : b.descriptor.effectiveOperands [] =
      .ok [ofString "x0", ofString "x0", b.label] := rfl
  simp only [Descriptor.encode, heffective, h.resolve_fixed, bind, Except.bind]
  by_cases hshort : b.denoted symbols ≤ 2047
  · rw [if_pos hshort, if_pos hshort]
    exact congrArg Except.ok (pack_fixed _)
  · rw [if_neg hshort, if_neg hshort]

theorem Known.encode_eq_word_iff (symbols : SymbolTable) (pc : Address) :
    b.descriptor.encode [] pc symbols = .ok b.word ↔ b.Unshadowed symbols := by
  rw [h.encode_eq, ← denoted_eq_value_iff]
  have hvalue := h.short
  by_cases hshort : b.denoted symbols ≤ 2047
  · rw [if_pos hshort, Except.ok.injEq, word]
    exact ⟨eq_of_wordWith_eq hshort hvalue, fun h => h ▸ rfl⟩
  · have hne : b.denoted symbols ≠ b.value := by omega
    simp [hshort, hne]

/-- Where a label gives the immediate another value, the word is that of the label's address. -/
theorem Known.encode_of_shadowed {symbols : SymbolTable} (hshadowed : ¬ b.Unshadowed symbols)
    (pc : Address) : ∃ address, symbols.get? b.label = some address ∧
      b.descriptor.encode [] pc symbols =
        if address.toNat ≤ 2047 then .ok (b.wordWith address.toNat)
        else .error (.outOfRange address.toNat (-2048) 2047) := by
  cases hget : symbols.get? b.label with
  | none => exact absurd (fun _ haddress => by simp [hget] at haddress) hshadowed
  | some address =>
    have hdenoted : b.denoted symbols = address.toNat := by simp [denoted, hget]
    exact ⟨address, rfl, by rw [h.encode_eq, hdenoted]⟩

end Known

theorem operands_of_encode {operands : List Text} {pc : Address} {w : Word}
    (h : b.descriptor.encode operands pc symbols = .ok w) : operands = [] := by
  obtain ⟨effective, _, heffective, -⟩ := Descriptor.encode_eq_ok.1 h
  cases operands with
  | nil => rfl
  | cons op ops => cases heffective

/-- In an assembled program the mnemonic keeps its word as long as it is not shadowed. -/
theorem Known.emitted (h : b.Known) {lines : List Text} {p : Program} (hp : p.Realizes lines)
    {k : Nat} {raw : Text} {label : Option Text} {operands : List Text}
    (hraw : (Program.instructionLines lines)[k]? = some raw)
    (hparse : Line.parse raw = .ok ⟨label, some ⟨b.descriptor, operands⟩⟩) :
    ∃ w, p.words[k]? = some w ∧ (w.value = b.word ↔ b.Unshadowed p.symbols) := by
  obtain ⟨w, hw, label', d, operands', hparse', -, hvalue⟩ := hp.words k raw hraw
  cases hparse.symm.trans hparse'
  cases operands_of_encode hvalue
  refine ⟨w, hw, ?_⟩
  rw [← h.encode_eq_word_iff p.symbols (Program.wordAddress k), hvalue, Except.ok.injEq]

/-- A mnemonic without operands has its own word, wherever it stands, under exactly those labels
that do not give its immediate another value; under others it has the word of the label. -/
theorem word_constant_iff (b : Bare) (hb : b ∈ all) :
    Descriptor.find? (ofString b.name) = some b.descriptor ∧
    (∀ pc, b.descriptor.encode [] pc .empty = .ok b.word) ∧
    (∀ symbols pc,
      (b.descriptor.encode [] pc symbols = .ok b.word ↔ b.Unshadowed symbols) ∧
      (¬ b.Unshadowed symbols → ∃ address, symbols.get? b.label = some address ∧
        b.descriptor.encode [] pc symbols =
          if address.toNat ≤ 2047 then .ok (b.wordWith address.toNat)
          else .error (.outOfRange address.toNat (-2048) 2047))) ∧
    ∀ lines (p : Program), Program.assemble lines = .ok p → ∀ (k : Nat) raw label operands,
      (Program.instructionLines lines)[k]? = some raw →
      Line.parse raw = .ok ⟨label, some ⟨b.descriptor, operands⟩⟩ →
      ∃ w, p.words[k]? = some w ∧ (w.value = b.word ↔ b.Unshadowed p.symbols) := by
  have h := known_of_mem hb
  refine ⟨h.found, fun pc => ?_, fun symbols pc => ?_, fun lines p hp k raw label operands => ?_⟩
  · exact (h.encode_eq_word_iff .empty pc).2 nofun
  · exact ⟨h.encode_eq_word_iff symbols pc, fun hshadowed => h.encode_of_shadowed hshadowed pc⟩
  · exact h.emitted (Program.realizes_of_assemble hp)

/-- A label `0` at address 4 changes the word of `ecall`. -/
theorem word_constant_iff_shadowed :
    ∃ p : Program, Program.assemble (["addi x1, x1, 1", "0: ecall"].map ofString) = .ok p ∧
      ∃ w, p.words[1]? = some w ∧ w.value ≠ 0x73 := by
  have hok : (Program.assemble (["addi x1, x1, 1", "0: ecall"].map
      ofString)).toOption.isSome = true := by decide
  obtain ⟨p, hp⟩ := exists_eq_ok hok
  obtain ⟨-, -, -, hprogram⟩ := word_constant_iff ecall (by simp [all])
  have hlabel : p.symbols.get? (ofString "0") = some 4 :=
    ((Program.realizes_of_assemble hp).symbols _ _).2 ⟨1, by decide, by decide⟩
  have hshadowed : ¬ ecall.Unshadowed p.symbols := fun h =>
    absurd (h 4 hlabel) (by decide)
  have hparse : (Line.parse (ofString "0: ecall")).toOption = some ⟨some (ofString "0"),
    some ⟨ecall.descriptor, []⟩⟩ := by decide
  obtain ⟨w, hw, hvalue⟩ := hprogram _ p hp 1 _ _ _ (by decide)
    (toOption_eq_some.1 hparse)
  exact ⟨p, hp, w, hw, fun hword => hshadowed (hvalue.1 (hword.trans (by decide)))⟩

end Bare

end Rv32i
