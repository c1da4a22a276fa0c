import Rv32i.Text.Glyph

/-!
# Instruction formats

The six ways in which a 32-bit word carries registers, constant bits and an immediate. A format
code that names none of them is kept apart.
-/

set_option autoImplicit false

namespace Rv32i

inductive Format where
  | r
  | i
  | s
  | b
  | u
  | j
  | unassigned
  deriving DecidableEq

namespace Format

def ofCode : Nat → Format
  | 0 => r
  | 1 => i
  | 2 => s
  | 3 => b
  | 4 => u
  | 5 => j
  | _ => unassigned

def letter : Format → Text
  | r => [.scalar 'R']
  | i => [.scalar 'I']
  | s => [.scalar 'S']
  | b => [.scalar 'B']
  | u => [.scalar 'U']
  | j => [.scalar 'J']
  | unassigned => [.scalar '?']

end Format

end Rv32i
