import Rv32i.Encoding
import Rv32i.Proofs.Except

/-!
# What the encoder accepts

For each format, the operand lists that resolve and what they resolve to. Whatever resolves has the
format of its instruction and fits the fields of that format, so nothing is cut off when it is
packed.
-/

set_option autoImplicit false

namespace Rv32i

@[simp] theorem checkRange_eq_ok {value low high : Int} {u : Unit} :
    checkRange value low high = .ok u ↔ low ≤ value ∧ value ≤ high := by
  unfold checkRange
  split <;> simp_all

@[simp] theorem checkEven_eq_ok {transfer : Transfer} {offset : Int} {u : Unit} :
    checkEven transfer offset = .ok u ↔ offset % 2 = 0 := by
  unfold checkEven
  split <;> simp_all

namespace Payload

@[simp] theorem checkShort_eq_ok {value : Int} {u : Unit} :
    checkShort value = .ok u ↔ -2048 ≤ value ∧ value ≤ 2047 := checkRange_eq_ok

section Resolve

variable {symbols : SymbolTable} {pc : Address} {operands : List Text} {p : Payload}

theorem resolveR_eq_ok : resolveR operands = .ok p ↔
    ∃ rd rs1 rs2 a b c, operands = [rd, rs1, rs2] ∧ Register.parse rd = .ok a ∧
      Register.parse rs1 = .ok b ∧ Register.parse rs2 = .ok c ∧ r a b c = p := by
  unfold resolveR
  split
  · simp [bind_eq_ok, pure, Except.pure, and_assoc]
  · simp_all [throw, throwThe, MonadExceptOf.throw]

theorem resolveLoad_eq_ok : resolveLoad operands = .ok p ↔
    ∃ rd memory a m, operands = [rd, memory] ∧ Register.parse rd = .ok a ∧
      MemoryOperand.parse memory = .ok m ∧ (-2048 ≤ m.offset ∧ m.offset ≤ 2047) ∧
      i a m.base m.offset = p := by
  unfold resolveLoad
  split
  · simp [bind_eq_ok, pure, Except.pure, and_assoc]
  · simp_all [throw, throwThe, MonadExceptOf.throw]

theorem resolveI_eq_ok : resolveI symbols operands = .ok p ↔
    ∃ rd rs1 immediate a b v, operands = [rd, rs1, immediate] ∧ Register.parse rd = .ok a ∧
      Register.parse rs1 = .ok b ∧ Immediate.resolve immediate symbols = .ok v ∧
      (-2048 ≤ v ∧ v ≤ 2047) ∧ i a b v = p := by
  unfold resolveI
  split
  · simp [bind_eq_ok, pure, Except.pure, and_assoc]
  · simp_all [throw, throwThe, MonadExceptOf.throw]

theorem resolveS_eq_ok : resolveS operands = .ok p ↔
    ∃ rs2 memory a m, operands = [rs2, memory] ∧ Register.parse rs2 = .ok a ∧
      MemoryOperand.parse memory = .ok m ∧ (-2048 ≤ m.offset ∧ m.offset ≤ 2047) ∧
      s a m.base m.offset = p := by
  unfold resolveS
  split
  · simp [bind_eq_ok, pure, Except.pure, and_assoc]
  · simp_all [throw, throwThe, MonadExceptOf.throw]

theorem resolveB_eq_ok : resolveB pc symbols operands = .ok p ↔
    ∃ rs1 rs2 target a b v, operands = [rs1, rs2, target] ∧ Register.parse rs1 = .ok a ∧
      Register.parse rs2 = .ok b ∧ Target.resolve target pc symbols = .ok v ∧
      v % 2 = 0 ∧ (-4096 ≤ v ∧ v ≤ 4095) ∧ .b a b v = p := by
  unfold resolveB
  split
  · simp [bind_eq_ok, pure, Except.pure, and_assoc]
  · simp_all [throw, throwThe, MonadExceptOf.throw]

theorem resolveU_eq_ok : resolveU symbols operands = .ok p ↔
    ∃ rd immediate a v, operands = [rd, immediate] ∧ Register.parse rd = .ok a ∧
      Immediate.resolve immediate symbols = .ok v ∧ u a v = p := by
  unfold resolveU
  split
  · simp [bind_eq_ok, pure, Except.pure, and_assoc]
  · simp_all [throw, throwThe, MonadExceptOf.throw]

theorem resolveJ_eq_ok : resolveJ pc symbols operands = .ok p ↔
    ∃ rd target a v, operands = [rd, target] ∧ Register.parse rd = .ok a ∧
      Target.resolve target pc symbols = .ok v ∧ v % 2 = 0 ∧
      (-1048576 ≤ v ∧ v ≤ 1048575) ∧ j a v = p := by
  unfold resolveJ
  split
  · simp [bind_eq_ok, pure, Except.pure, and_assoc]
  · simp_all [throw, throwThe, MonadExceptOf.throw]

end Resolve

def format : Payload → Format
  | r _ _ _ => .r
  | i _ _ _ => .i
  | s _ _ _ => .s
  | b _ _ _ => .b
  | u _ _ => .u
  | j _ _ => .j

/-- The field of the immediate holds it whole. Format U takes bits from the middle of its immediate,
which may be any number. -/
def Fits : Payload → Prop
  | i _ _ immediate => -2048 ≤ immediate ∧ immediate ≤ 2047
  | s _ _ offset => -2048 ≤ offset ∧ offset ≤ 2047
  | b _ _ offset => offset % 2 = 0 ∧ -4096 ≤ offset ∧ offset ≤ 4095
  | j _ offset => offset % 2 = 0 ∧ -1048576 ≤ offset ∧ offset ≤ 1048575
  | r _ _ _ => True
  | u _ _ => True

end Payload

namespace Descriptor

variable {d : Descriptor} {operands : List Text} {pc : Address} {symbols : SymbolTable}

theorem resolve_ok {p : Payload} (h : d.resolve operands pc symbols = .ok p) :
    p.format = d.format ∧ p.Fits := by
  unfold resolve at h
  split at h
  case h_1 hd =>
    obtain ⟨_, _, _, _, _, _, _, _, _, _, rfl⟩ := Payload.resolveR_eq_ok.1 h
    exact ⟨hd.symm, trivial⟩
  case h_2 hd =>
    split at h
    · obtain ⟨_, _, _, _, _, _, _, hm, rfl⟩ := Payload.resolveLoad_eq_ok.1 h
      exact ⟨hd.symm, hm⟩
    · obtain ⟨_, _, _, _, _, _, _, _, _, _, hv, rfl⟩ := Payload.resolveI_eq_ok.1 h
      exact ⟨hd.symm, hv⟩
  case h_3 hd =>
    obtain ⟨_, _, _, _, _, _, _, hm, rfl⟩ := Payload.resolveS_eq_ok.1 h
    exact ⟨hd.symm, hm⟩
  case h_4 hd =>
    obtain ⟨_, _, _, _, _, _, _, _, _, _, heven, hv, rfl⟩ := Payload.resolveB_eq_ok.1 h
    exact ⟨hd.symm, heven, hv⟩
  case h_5 hd =>
    obtain ⟨_, _, _, _, _, _, _, rfl⟩ := Payload.resolveU_eq_ok.1 h
    exact ⟨hd.symm, trivial⟩
  case h_6 hd =>
    obtain ⟨_, _, _, _, _, _, _, heven, hv, rfl⟩ := Payload.resolveJ_eq_ok.1 h
    exact ⟨hd.symm, heven, hv⟩
  case h_7 => simp at h

theorem encode_eq_ok {w : Word} : d.encode operands pc symbols = .ok w ↔
    ∃ effective p, d.effectiveOperands operands = .ok effective ∧
      d.resolve effective pc symbols = .ok p ∧ d.pack p = w := by
  simp [encode, bind_eq_ok, pure, Except.pure]

/-- An instruction that is written with operands is encoded as they resolve. -/
theorem encode_of_written (hd : d.fixed = none) :
    d.encode operands pc symbols = (d.resolve operands pc symbols).map d.pack := by
  simp only [encode, effectiveOperands, hd, ok_bind]
  rfl

theorem encode_eq_ok_of_written {w : Word} (hd : d.fixed = none) :
    d.encode operands pc symbols = .ok w ↔
      ∃ p, d.resolve operands pc symbols = .ok p ∧ d.pack p = w := by
  simp [encode_eq_ok, effectiveOperands, hd]

/-- Encoding sees no more of a symbol table than its lookups. -/
theorem encode_congr {symbols' : SymbolTable} (h : ∀ name, symbols.get? name = symbols'.get? name) :
    d.encode operands pc symbols = d.encode operands pc symbols' := by
  have himmediate (token : Text) :
      Immediate.resolve token symbols = Immediate.resolve token symbols' := by
    simp only [Immediate.resolve, h]
  have htarget (token : Text) :
      Target.resolve token pc symbols = Target.resolve token pc symbols' := by
    simp only [Target.resolve, h]
  have hresolve (operands : List Text) :
      d.resolve operands pc symbols = d.resolve operands pc symbols' := by
    unfold resolve Payload.resolveI Payload.resolveB Payload.resolveU Payload.resolveJ
    simp only [himmediate, htarget]
  simp only [encode, hresolve]

end Descriptor

def BlamesOperands {α : Type} (x : Except Fault α) : Prop :=
  ∀ fault, x = .error fault → fault.kind ≠ .syntaxError ∧ fault.kind ≠ .duplicateLabel

namespace BlamesOperands

variable {α β : Type}

theorem ok (a : α) : BlamesOperands (.ok a) := nofun

theorem error {fault : Fault} (h : fault.kind ≠ .syntaxError ∧ fault.kind ≠ .duplicateLabel) :
    BlamesOperands (.error fault : Except Fault α) := by
  intro fault' heq
  cases heq
  exact h

theorem bind {x : Except Fault α} {f : α → Except Fault β} (hx : BlamesOperands x)
    (hf : ∀ a, BlamesOperands (f a)) : BlamesOperands (x >>= f) := by
  intro fault h
  rcases bind_eq_error.1 h with hfirst | ⟨a, -, hrest⟩
  · exact hx fault hfirst
  · exact hf a fault hrest

theorem register (token : Text) : BlamesOperands (Register.parse token) := by
  unfold Register.parse
  split
  · exact ok _
  · exact error (by simp [Fault.kind])

theorem immediate (token : Text) (symbols : SymbolTable) :
    BlamesOperands (Immediate.resolve token symbols) := by
  unfold Immediate.resolve
  dsimp only
  split
  · exact ok _
  · split
    · exact ok _
    · apply error
      split <;> simp [Fault.kind]

theorem target (token : Text) (pc : Address) (symbols : SymbolTable) :
    BlamesOperands (Target.resolve token pc symbols) := by
  unfold Target.resolve
  split
  · exact ok _
  · split
    · exact ok _
    · exact error (by simp [Fault.kind])

theorem memory (token : Text) : BlamesOperands (MemoryOperand.parse token) := by
  unfold MemoryOperand.parse
  dsimp only
  split
  · split
    · exact (register _).bind fun _ => ok _
    · exact error (by simp [Fault.kind])
  · exact error (by simp [Fault.kind])

theorem range (value low high : Int) : BlamesOperands (checkRange value low high) := by
  unfold checkRange
  split
  · exact ok _
  · exact error (by simp [Fault.kind])

theorem even (transfer : Transfer) (offset : Int) : BlamesOperands (checkEven transfer offset) := by
  unfold checkEven
  split
  · exact ok _
  · exact error (by simp [Fault.kind])

theorem count (expected actual : Nat) :
    BlamesOperands (.error (.operandCount expected actual) : Except Fault α) :=
  error (by simp [Fault.kind])

theorem resolve {d : Descriptor} (hd : d.format ≠ .unassigned) (operands : List Text)
    (pc : Address) (symbols : SymbolTable) : BlamesOperands (d.resolve operands pc symbols) := by
  unfold Descriptor.resolve
  cases hformat : d.format with
  | r =>
    unfold Payload.resolveR
    dsimp only
    split
    · exact (register _).bind fun _ => (register _).bind fun _ => (register _).bind fun _ => ok _
    · exact count _ _
  | i =>
    unfold Payload.resolveLoad Payload.resolveI
    dsimp only
    split
    · split
      · exact (register _).bind fun _ => (memory _).bind fun _ => (range _ _ _).bind fun _ => ok _
      · exact count _ _
    · split
      · exact (register _).bind fun _ => (register _).bind fun _ =>
          (immediate _ _).bind fun _ => (range _ _ _).bind fun _ => ok _
      · exact count _ _
  | s =>
    unfold Payload.resolveS
    dsimp only
    split
    · exact (register _).bind fun _ => (memory _).bind fun _ => (range _ _ _).bind fun _ => ok _
    · exact count _ _
  | b =>
    unfold Payload.resolveB
    dsimp only
    split
    · exact (register _).bind fun _ => (register _).bind fun _ => (target _ _ _).bind fun _ =>
        (even _ _).bind fun _ => (range _ _ _).bind fun _ => ok _
    · exact count _ _
  | u =>
    unfold Payload.resolveU
    dsimp only
    split
    · exact (register _).bind fun _ => (immediate _ _).bind fun _ => ok _
    · exact count _ _
  | j =>
    unfold Payload.resolveJ
    dsimp only
    split
    · exact (register _).bind fun _ => (target _ _ _).bind fun _ => (even _ _).bind fun _ =>
        (range _ _ _).bind fun _ => ok _
    · exact count _ _
  | unassigned => exact absurd hformat hd

theorem encode {d : Descriptor} (hd : d.format ≠ .unassigned) (operands : List Text)
    (pc : Address) (symbols : SymbolTable) : BlamesOperands (d.encode operands pc symbols) := by
  have heffective : BlamesOperands (d.effectiveOperands operands) := by
    unfold Descriptor.effectiveOperands
    split
    · exact ok _
    · split
      · exact ok _
      · exact count _ _
  exact heffective.bind fun effective => (resolve hd effective pc symbols).bind fun _ => ok _

end BlamesOperands

end Rv32i
