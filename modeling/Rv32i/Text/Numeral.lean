import Rv32i.Text.Glyph

/-!
# Numerals

Numbers are written in a base up to sixteen with lower-case digits, either in as few digits as
they need or in a fixed number of places. Digits of either case are read back.
-/

set_option autoImplicit false

namespace Rv32i

namespace Numeral

def digits (base n : Nat) : Text := (Nat.toDigits base n).map .scalar

def decimal (n : Nat) : Text := digits 10 n

def hexadecimal (n : Nat) : Text := digits 16 n

def signed : Int → Text
  | .ofNat n => decimal n
  | .negSucc n => .scalar '-' :: decimal (n + 1)

def places (base : Nat) : (width n : Nat) → Text
  | 0, _ => []
  | width + 1, n => places base width (n / base) ++ [.scalar (Nat.digitChar (n % base))]

@[simp] theorem length_places (base width n : Nat) : (places base width n).length = width := by
  induction width generalizing n with
  | zero => rfl
  | succ width ih => simp [places, ih]

def digitOf? (c : Char) : Option Nat :=
  if '0' ≤ c ∧ c ≤ '9' then some (c.toNat - 0x30)
  else if 'a' ≤ c ∧ c ≤ 'f' then some (c.toNat - 0x57)
  else if 'A' ≤ c ∧ c ≤ 'F' then some (c.toNat - 0x37)
  else none

def digit? (base : Nat) : Glyph → Option Nat
  | .scalar c => (digitOf? c).filter (· < base)
  | .stray _ => none

def value? (base : Nat) (t : Text) : Option Nat :=
  if t.isEmpty then none
  else t.foldlM (fun n g => (digit? base g).map (base * n + ·)) 0

end Numeral

end Rv32i
