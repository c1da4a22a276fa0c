import Rv32i.Text.Numeral
import Rv32i.Text.Printable

/-!
# Quoted text

A text between quotes, on one line and free of invisible characters: the delimiter and the
backslash are escaped, control characters have their short names or two hexadecimal digits, and
other characters that do not print are written by code point. A stray byte shows its value.
-/

set_option autoImplicit false

namespace Rv32i

namespace Quoted

def controlLetter? (n : Nat) : Option Char :=
  [(7, 'a'), (8, 'b'), (9, 't'), (10, 'n'), (11, 'v'), (12, 'f'), (13, 'r')].lookup n

def byCode (letter : Char) (width n : Nat) : Text :=
  .scalar '\\' :: .scalar letter :: Numeral.places 16 width n

def escape (delimiter : Char) : Glyph → Text
  | .stray b => byCode 'x' 2 b.toNat
  | .scalar c =>
    let n := c.toNat
    if c = delimiter ∨ c = '\\' then [.scalar '\\', .scalar c]
    else if isPrintableCode n then [.scalar c]
    else match controlLetter? n with
      | some letter => [.scalar '\\', .scalar letter]
      | none =>
        if n < 0x20 ∨ n = 0x7F then byCode 'x' 2 n
        else if n < 0x10000 then byCode 'u' 4 n
        else byCode 'U' 8 n

def between (delimiter : Char) (t : Text) : Text :=
  .scalar delimiter :: t.flatMap (escape delimiter) ++ [.scalar delimiter]

end Quoted

def Text.quoted (t : Text) : Text := Quoted.between '"' t

def Quoted.character (c : Char) : Text := between (Char.ofNat 0x27) [.scalar c]

end Rv32i
