import Rv32i.Proofs.Encoding
import Rv32i.Proofs.Literal

/-!
# The rules for operands

What an instruction asks of its operands is a list of rules, in the order in which they count. The
instruction is encoded exactly if all of them are kept. Otherwise the first one that is broken tells
the kind of the fault, whatever else is wrong.
-/

set_option autoImplicit false

namespace Rv32i

structure Rule where
  Kept : Prop
  Blames : FaultKind → Prop

namespace Rule

def requires (p : Prop) (kind : FaultKind) : Rule := ⟨p, (· = kind)⟩

/-- Something has to be readable. Where it is not, the fault is that of its reader. -/
def reads {α : Type} (x : Except Fault α) : Rule :=
  ⟨∃ a, x = .ok a, fun kind => ∃ fault, x = .error fault ∧ fault.kind = kind⟩

/-- One of the rules is broken in a way that is reported with this kind, and the rules before it are
kept. -/
def FirstBroken : List Rule → FaultKind → Prop
  | [], _ => False
  | rule :: rules, kind =>
    (¬ rule.Kept ∧ rule.Blames kind) ∨ (rule.Kept ∧ FirstBroken rules kind)

def count (expected : Nat) (operands : List Text) : Rule :=
  requires (operands.length = expected) .operandCount

def register (token : Text) : Rule :=
  requires (∃ r, Register.parse token = .ok r) .unknownRegister

def immediate (token : Text) (symbols : SymbolTable) : Rule :=
  reads (Immediate.resolve token symbols)

/-- The rule says nothing about a text that denotes no number, which has broken a rule before. -/
def shortImmediate (token : Text) (symbols : SymbolTable) : Rule :=
  requires (∀ v, Immediate.resolve token symbols = .ok v → -2048 ≤ v ∧ v ≤ 2047) .immediateRange

def memory (token : Text) : Rule := reads (MemoryOperand.parse token)

def shortOffset (token : Text) : Rule :=
  requires (∀ m, MemoryOperand.parse token = .ok m → -2048 ≤ m.offset ∧ m.offset ≤ 2047)
    .immediateRange

def target (token : Text) (symbols : SymbolTable) : Rule :=
  requires ((∃ address, symbols.get? token = some address) ∨ ∃ v, Literal.Denotes token v)
    .undefinedSymbol

def Distance (token : Text) (pc : Address) (symbols : SymbolTable) (v : Int) : Prop :=
  (∃ address, symbols.get? token = some address ∧ v = address.toNat - pc.toNat) ∨
  (symbols.get? token = none ∧ Literal.Denotes token v)

def aligned (token : Text) (pc : Address) (symbols : SymbolTable) : Rule :=
  requires (∀ v, Distance token pc symbols v → v % 2 = 0) .misalignment

def reach (token : Text) (pc : Address) (symbols : SymbolTable) (low high : Int) : Rule :=
  requires (∀ v, Distance token pc symbols v → low ≤ v ∧ v ≤ high) .immediateRange

end Rule

namespace Descriptor

def operandCount (d : Descriptor) : Nat :=
  match d.format with
  | .r | .b => 3
  | .i => if d.isLoad then 2 else 3
  | _ => 2

/-- All operands are registers but the last one, which is a register in format R only. -/
def registerCount (d : Descriptor) : Nat :=
  if d.format = .r then d.operandCount else d.operandCount - 1

def lastRules (d : Descriptor) (token : Text) (pc : Address) (symbols : SymbolTable) : List Rule :=
  match d.format with
  | .i =>
    if d.isLoad then [.memory token, .shortOffset token]
    else [.immediate token symbols, .shortImmediate token symbols]
  | .s => [.memory token, .shortOffset token]
  | .b =>
    [.target token symbols, .aligned token pc symbols, .reach token pc symbols (-4096) 4094]
  | .u => [.immediate token symbols]
  | .j =>
    [.target token symbols, .aligned token pc symbols, .reach token pc symbols (-1048576) 1048574]
  | _ => []

def rules (d : Descriptor) (operands : List Text) (pc : Address) (symbols : SymbolTable) :
    List Rule :=
  .count d.operandCount operands :: (operands.take d.registerCount).map .register ++
    d.lastRules (operands.getD (d.operandCount - 1) []) pc symbols

end Descriptor

namespace Rule

structure Follows {α : Type} (x : Except Fault α) (rules : List Rule) : Prop where
  ok_iff : (∃ a, x = .ok a) ↔ ∀ rule ∈ rules, rule.Kept
  error_iff : ∀ kind, (∃ fault, x = .error fault ∧ fault.kind = kind) ↔ FirstBroken rules kind

namespace Follows

variable {α β : Type} {x : Except Fault α} {rule : Rule} {rules : List Rule}

theorem ok (a : α) : Follows (.ok a) [] := ⟨by simp, by simp [FirstBroken]⟩

theorem of_reads (x : Except Fault α) : Follows x [reads x] := by
  cases x with
  | ok a => exact ⟨by simp [reads], by simp [reads, FirstBroken]⟩
  | error fault => exact ⟨by simp [reads], by simp [reads, FirstBroken]⟩

theorem of_requires {p : Prop} {kind : FaultKind} (hok : (∃ a, x = .ok a) ↔ p)
    (herror : ∀ fault, x = .error fault → fault.kind = kind) : Follows x [requires p kind] := by
  refine ⟨by simpa [requires] using hok, fun kind' => ?_⟩
  cases x with
  | ok a => simp [requires, FirstBroken, ← hok]
  | error fault =>
    have hkind := herror fault rfl
    simp [requires, FirstBroken, ← hok, hkind, eq_comm]

theorem kept (hrule : rule.Kept) (h : Follows x rules) : Follows x (rule :: rules) := by
  refine ⟨?_, fun kind => ?_⟩
  · rw [h.ok_iff, List.forall_mem_cons, and_iff_right hrule]
  · simp [h.error_iff, FirstBroken, hrule]

theorem broken {fault : Fault} (hrule : ¬ rule.Kept)
    (hblames : ∀ kind, rule.Blames kind ↔ fault.kind = kind) :
    Follows (.error fault : Except Fault α) (rule :: rules) := by
  refine ⟨?_, fun kind => ?_⟩
  · simp [hrule]
  · simp [FirstBroken, hrule, hblames]

/-- Where the first step fails the rules of the others do not count. -/
theorem bind {f : α → Except Fault β} (hx : Follows x [rule])
    (hf : ∀ a, x = .ok a → Follows (f a) rules) : Follows (x >>= f) (rule :: rules) := by
  cases x with
  | ok a =>
    have hkept : rule.Kept := by simpa using hx.ok_iff
    exact (hf a rfl).kept hkept
  | error fault =>
    have hbroken : ¬ rule.Kept := by simpa using hx.ok_iff
    refine broken hbroken fun kind => ?_
    have herror := hx.error_iff kind
    simpa [FirstBroken, hbroken, eq_comm] using herror.symm

theorem map {f : α → β} (h : Follows x rules) : Follows (x.map f) rules := by
  cases x with
  | ok a => exact ⟨by simpa [Except.map] using h.ok_iff, by simpa [Except.map] using h.error_iff⟩
  | error fault =>
    exact ⟨by simpa [Except.map] using h.ok_iff, by simpa [Except.map] using h.error_iff⟩

section Checks

variable {p : Prop}

theorem register (token : Text) : Follows (Register.parse token) [.register token] := by
  exact of_requires Iff.rfl fun fault h => Register.kind_of_parse_eq_error h

theorem range {value low high : Int} (hp : p ↔ low ≤ value ∧ value ≤ high) :
    Follows (checkRange value low high) [requires p .immediateRange] := by
  refine of_requires (by simp [hp]) fun fault h => ?_
  unfold checkRange at h
  split at h
  · cases h
  · cases h
    rfl

theorem even {transfer : Transfer} {offset : Int} (hp : p ↔ offset % 2 = 0) :
    Follows (checkEven transfer offset) [requires p .misalignment] := by
  refine of_requires (by simp [hp]) fun fault h => ?_
  unfold checkEven at h
  split at h
  · cases h
  · cases h
    rfl

theorem miscounted {expected : Nat} {operands : List Text} (h : operands.length ≠ expected) :
    Follows (.error (.operandCount expected operands.length) : Except Fault α)
      (.count expected operands :: rules) :=
  broken h fun _ => eq_comm

theorem not_two {operands : List Text} (h : ∀ a b, operands = [a, b] → False) :
    Follows (.error (.operandCount 2 operands.length) : Except Fault α)
      (.count 2 operands :: rules) := by
  apply miscounted
  intro hlength
  obtain ⟨a, b, rfl⟩ := List.length_eq_two.1 hlength
  exact h a b rfl

theorem not_three {operands : List Text} (h : ∀ a b c, operands = [a, b, c] → False) :
    Follows (.error (.operandCount 3 operands.length) : Except Fault α)
      (.count 3 operands :: rules) := by
  apply miscounted
  intro hlength
  obtain ⟨a, b, c, rfl⟩ := List.length_eq_three.1 hlength
  exact h a b c rfl

end Checks

end Follows

theorem resolve_eq_ok_iff_distance {token : Text} {pc : Address} {symbols : SymbolTable} {v : Int} :
    Target.resolve token pc symbols = .ok v ↔ Distance token pc symbols v := by
  unfold Target.resolve Distance
  cases hlabel : symbols.get? token with
  | some address => simp [eq_comm]
  | none =>
    simp only [← Literal.parse?_eq_some_iff]
    cases hliteral : Literal.parse? token with
    | some v' => simp
    | none => simp

theorem Follows.target (token : Text) (pc : Address) (symbols : SymbolTable) :
    Follows (Target.resolve token pc symbols) [.target token symbols] := by
  refine of_requires ?_ fun fault h => ?_
  · simp only [resolve_eq_ok_iff_distance, Distance]
    cases hlabel : symbols.get? token with
    | some address => simp
    | none => simp
  · unfold Target.resolve at h
    split at h
    · cases h
    · split at h
      · cases h
      · cases h
        rfl

section Operand

variable {token : Text} {pc : Address} {symbols : SymbolTable} {β : Type}

theorem Follows.memory_operand (f : MemoryOperand → β) :
    Follows (do
      let m ← MemoryOperand.parse token
      Payload.checkShort m.offset
      return f m) [.memory token, .shortOffset token] := by
  refine (Follows.of_reads _).bind fun m hm => (Follows.range ?_).bind fun _ _ => .ok _
  simp [hm]

theorem Follows.immediate_operand (f : Int → β) :
    Follows (do
      let v ← Immediate.resolve token symbols
      Payload.checkShort v
      return f v) [.immediate token symbols, .shortImmediate token symbols] := by
  refine (Follows.of_reads _).bind fun v hv => (Follows.range ?_).bind fun _ _ => .ok _
  simp [hv]

/-- An odd bound is never met, as the distance is even by then. -/
theorem Follows.target_operand (transfer : Transfer) (f : Int → β) (low high : Int)
    (hhigh : high % 2 = 0) :
    Follows (do
      let v ← Target.resolve token pc symbols
      checkEven transfer v
      checkRange v low (high + 1)
      return f v)
      [.target token symbols, .aligned token pc symbols, .reach token pc symbols low high] := by
  refine (Follows.target token pc symbols).bind fun v hv => ?_
  have hdistance (v' : Int) : Distance token pc symbols v' ↔ v' = v := by
    rw [← resolve_eq_ok_iff_distance, hv, Except.ok.injEq, eq_comm]
  refine (Follows.even ?_).bind fun _ heven => (Follows.range ?_).bind fun _ _ => .ok _
  · simp [hdistance]
  · rw [checkEven_eq_ok] at heven
    simp only [hdistance, forall_eq]
    omega

end Operand

end Rule

namespace Payload

open Rule (Follows)

variable {pc : Address} {symbols : SymbolTable}

theorem resolveR_follows (operands : List Text) :
    Follows (resolveR operands) (.count 3 operands :: (operands.take 3).map .register) := by
  unfold resolveR
  split
  · next rd rs1 rs2 =>
    apply Follows.kept rfl
    exact (Follows.register rd).bind fun _ _ => (Follows.register rs1).bind fun _ _ =>
      (Follows.register rs2).bind fun _ _ => .ok _
  · next hne => exact Follows.not_three hne

theorem resolveLoad_follows (operands : List Text) : Follows (resolveLoad operands)
    (.count 2 operands :: (operands.take 1).map .register ++
      [.memory (operands.getD 1 []), .shortOffset (operands.getD 1 [])]) := by
  unfold resolveLoad
  split
  · next rd memory =>
    apply Follows.kept rfl
    exact (Follows.register rd).bind fun _ _ => Follows.memory_operand _
  · next hne => exact Follows.not_two hne

theorem resolveI_follows (operands : List Text) : Follows (resolveI symbols operands)
    (.count 3 operands :: (operands.take 2).map .register ++
      [.immediate (operands.getD 2 []) symbols, .shortImmediate (operands.getD 2 []) symbols]) := by
  unfold resolveI
  split
  · next rd rs1 immediate =>
    apply Follows.kept rfl
    exact (Follows.register rd).bind fun _ _ => (Follows.register rs1).bind fun _ _ =>
      Follows.immediate_operand _
  · next hne => exact Follows.not_three hne

theorem resolveS_follows (operands : List Text) : Follows (resolveS operands)
    (.count 2 operands :: (operands.take 1).map .register ++
      [.memory (operands.getD 1 []), .shortOffset (operands.getD 1 [])]) := by
  unfold resolveS
  split
  · next rs2 memory =>
    apply Follows.kept rfl
    exact (Follows.register rs2).bind fun _ _ => Follows.memory_operand _
  · next hne => exact Follows.not_two hne

theorem resolveB_follows (operands : List Text) : Follows (resolveB pc symbols operands)
    (.count 3 operands :: (operands.take 2).map .register ++
      [.target (operands.getD 2 []) symbols, .aligned (operands.getD 2 []) pc symbols,
        .reach (operands.getD 2 []) pc symbols (-4096) 4094]) := by
  unfold resolveB
  split
  · next rs1 rs2 target =>
    apply Follows.kept rfl
    exact (Follows.register rs1).bind fun _ _ => (Follows.register rs2).bind fun _ _ =>
      Follows.target_operand .branch _ (-4096) 4094 rfl
  · next hne => exact Follows.not_three hne

theorem resolveU_follows (operands : List Text) : Follows (resolveU symbols operands)
    (.count 2 operands :: (operands.take 1).map .register ++
      [.immediate (operands.getD 1 []) symbols]) := by
  unfold resolveU
  split
  · next rd immediate =>
    apply Follows.kept rfl
    exact (Follows.register rd).bind fun _ _ => (Follows.of_reads _).bind fun _ _ => .ok _
  · next hne => exact Follows.not_two hne

theorem resolveJ_follows (operands : List Text) : Follows (resolveJ pc symbols operands)
    (.count 2 operands :: (operands.take 1).map .register ++
      [.target (operands.getD 1 []) symbols, .aligned (operands.getD 1 []) pc symbols,
        .reach (operands.getD 1 []) pc symbols (-1048576) 1048574]) := by
  unfold resolveJ
  split
  · next rd target =>
    apply Follows.kept rfl
    exact (Follows.register rd).bind fun _ _ =>
      Follows.target_operand .jump _ (-1048576) 1048574 rfl
  · next hne => exact Follows.not_two hne

end Payload

namespace Descriptor

open Rule (Follows FirstBroken)

variable {d : Descriptor}

theorem resolve_follows (hd : d.format ≠ .unassigned) (operands : List Text) (pc : Address)
    (symbols : SymbolTable) :
    Follows (d.resolve operands pc symbols) (d.rules operands pc symbols) := by
  unfold resolve rules lastRules registerCount operandCount
  cases hformat : d.format with
  | r =>
    simp only [List.append_nil]
    exact Payload.resolveR_follows operands
  | i =>
    cases d.isLoad with
    | true => exact Payload.resolveLoad_follows operands
    | false => exact Payload.resolveI_follows operands
  | s => exact Payload.resolveS_follows operands
  | b => exact Payload.resolveB_follows operands
  | u => exact Payload.resolveU_follows operands
  | j => exact Payload.resolveJ_follows operands
  | unassigned => exact absurd hformat hd

/-- An instruction that is written with operands is encoded exactly if these keep all its rules.
Otherwise the kind of the fault is that of the first broken rule. No instruction of the table fails
with a fault of syntax or of a repeated label. -/
theorem encode_follows_rules (hd : d ∈ table) (operands : List Text) (pc : Address)
    (symbols : SymbolTable) :
    (d.fixed = none →
      ((∃ w, d.encode operands pc symbols = .ok w) ↔
        ∀ rule ∈ d.rules operands pc symbols, rule.Kept) ∧
      ∀ kind, (∃ fault, d.encode operands pc symbols = .error fault ∧ fault.kind = kind) ↔
        FirstBroken (d.rules operands pc symbols) kind) ∧
    ∀ fault, d.encode operands pc symbols = .error fault →
      fault.kind ≠ .syntaxError ∧ fault.kind ≠ .duplicateLabel := by
  have hall : ∀ d ∈ table, d.format ≠ .unassigned := by decide
  have hformat := hall d hd
  constructor
  · intro hfixed
    have hfollows := (resolve_follows hformat operands pc symbols).map (f := d.pack)
    rw [← encode_of_written hfixed] at hfollows
    exact ⟨hfollows.ok_iff, hfollows.error_iff⟩
  · exact BlamesOperands.encode hformat operands pc symbols

/-- The target of the branch is odd and out of reach, and only the first counts. -/
theorem encode_follows_rules_odd :
    let d := branch "beq" 0b000
    let operands := ["x1", "sp", "-5001"].map Text.ofString
    d ∈ table ∧ d.fixed = none ∧ FirstBroken (d.rules operands 8 .empty) .misalignment := by
  intro d operands
  have hd : d ∈ table := by decide
  have hfault : d.encode operands 8 .empty = .error (.oddOffset .branch (-5001)) := by rfl
  exact ⟨hd, rfl, (((encode_follows_rules hd operands 8 .empty).1 rfl).2 .misalignment).1
    ⟨_, hfault, rfl⟩⟩

end Descriptor

end Rv32i
