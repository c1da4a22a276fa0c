import Rv32i.Register
import Rv32i.SymbolTable

/-!
# Operands

The readers of everything an instruction can be given besides plain registers: literals and
immediates, memory operands, and the targets of branches and jumps.
-/

set_option autoImplicit false

namespace Rv32i

def int64Bound : Nat := 0x8000000000000000

def isInt64 (v : Int) : Bool := -int64Bound ≤ v && v < int64Bound

namespace Literal

def splitSign : Text → Bool × Text
  | .scalar '-' :: t => (true, t)
  | .scalar '+' :: t => (false, t)
  | t => (false, t)

/-- The base that the first two characters announce, and the digits after them. An announcement
with nothing after it is none. -/
def splitBase : Text → Nat × Text
  | .scalar '0' :: .scalar mark :: g :: t =>
    if mark = 'x' ∨ mark = 'X' then (16, g :: t)
    else if mark = 'b' ∨ mark = 'B' then (2, g :: t)
    else (10, .scalar '0' :: .scalar mark :: g :: t)
  | t => (10, t)

def applySign (negative : Bool) (n : Nat) : Int := if negative then -(n : Int) else n

def parse? (t : Text) : Option Int :=
  let (negative, magnitude) := splitSign t
  let (base, digits) := splitBase magnitude
  match Numeral.value? base digits with
  | some n => if n < int64Bound then some (applySign negative n) else none
  | none => none

end Literal

namespace Immediate

def opensName : Text → Bool
  | .scalar c :: _ => c == '_' || ('a' ≤ c && c ≤ 'z') || ('A' ≤ c && c ≤ 'Z')
  | _ => false

/-- A label denotes its address, also where the text could be read as a number. -/
def resolve (token : Text) (symbols : SymbolTable) : Except Fault Int :=
  let t := token.trim
  match symbols.get? t with
  | some address => .ok address.toNat
  | none =>
    match Literal.parse? t with
    | some v => .ok v
    | none => .error (if opensName t then .undefinedSymbol t else .malformedImmediate t)

end Immediate

/-- The target of a branch or jump as an offset from the instruction: a label is a place to go to,
a literal is the offset itself. -/
def Target.resolve (token : Text) (pc : Address) (symbols : SymbolTable) : Except Fault Int :=
  match symbols.get? token with
  | some address => .ok (address.toNat - pc.toNat)
  | none =>
    match Literal.parse? token with
    | some v => .ok v
    | none => .error (.undefinedTarget token)

structure MemoryOperand where
  offset : Int
  base : Register
  deriving DecidableEq

namespace MemoryOperand

def isDigit (g : Glyph) : Bool := (Numeral.digit? 10 g).isSome

def isInner (g : Glyph) : Bool :=
  !([' ', '\t', '\n', '\x0c', '\r', '(', ')'].map Glyph.scalar).contains g

def split? (t : Text) : Option (Text × Text) :=
  let digits := (Literal.splitSign t).2
  match digits.dropWhile isDigit with
  | .scalar '(' :: rest =>
    let inner := rest.takeWhile isInner
    if !(digits.takeWhile isDigit).isEmpty && !inner.isEmpty &&
        rest.dropWhile isInner == [.scalar ')'] then
      some (t.takeWhile (· != .scalar '('), inner)
    else none
  | _ => none

def offset? (t : Text) : Option Int :=
  let (negative, digits) := Literal.splitSign t
  ((Numeral.value? 10 digits).map (Literal.applySign negative)).filter isInt64

def parse (token : Text) : Except Fault MemoryOperand := do
  let t := token.trim
  let some (offset, inner) := split? t | throw (.malformedMemory t)
  let some value := offset? offset | throw (.offsetTooLarge offset)
  return ⟨value, ← Register.parse inner⟩

end MemoryOperand

end Rv32i
