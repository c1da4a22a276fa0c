import Rv32i.Text.Glyph

/-!
# White space and lines

Blanks, the text without blanks at its ends, and the fields that blanks set apart. A text is cut
into lines at its line feeds; a carriage return right before the cut is dropped with it.
-/

set_option autoImplicit false

namespace Rv32i

/-- The code points with the Unicode property White_Space. -/
def isBlankCode (n : Nat) : Bool :=
  (0x09 ≤ n && n ≤ 0x0D) || n == 0x20 || n == 0x85 || n == 0xA0 || n == 0x1680 ||
    (0x2000 ≤ n && n ≤ 0x200A) || n == 0x2028 || n == 0x2029 || n == 0x202F || n == 0x205F ||
    n == 0x3000

def Glyph.isBlank : Glyph → Bool
  | scalar c => isBlankCode c.toNat
  | stray _ => false

namespace Text

def trimLeft (t : Text) : Text := t.dropWhile Glyph.isBlank

def trimRight (t : Text) : Text := (t.reverse.dropWhile Glyph.isBlank).reverse

def trim (t : Text) : Text := trimRight (trimLeft t)

def fields (t : Text) : List Text := (t.splitOnP Glyph.isBlank).filter (!·.isEmpty)

def dropReturn (t : Text) : Text :=
  if t.getLast? = some (.scalar '\r') then t.dropLast else t

def lines (t : Text) : List Text := (t.splitOn (.scalar '\n')).map dropReturn

end Text

end Rv32i
