/-!
# Text as decoded bytes

A text is the list of characters its bytes spell out in UTF-8. A byte that belongs to no
well-formed character stands for itself, so every sequence of bytes is a text and can be given
back unchanged.
-/

set_option autoImplicit false

namespace Rv32i

/-- A character, or a byte that no well-formed character covers. -/
inductive Glyph where
  | scalar (c : Char)
  | stray (b : UInt8)
  deriving DecidableEq

abbrev Text := List Glyph

namespace Glyph

def toBytes : Glyph → List UInt8
  | scalar c => String.utf8EncodeChar c
  | stray b => [b]

/-- The only character whose encoding can start the given bytes: its bits are the payload bits
of as many bytes as the first one announces. -/
def candidate (bytes : List UInt8) : Char :=
  let lead := (bytes.getD 0 0).toNat
  let payload (i : Nat) := (bytes.getD i 0).toNat % 64
  Char.ofNat <|
    if lead < 0x80 then lead
    else if lead < 0xE0 then lead % 32 * 64 + payload 1
    else if lead < 0xF0 then (lead % 16 * 64 + payload 1) * 64 + payload 2
    else ((lead % 8 * 64 + payload 1) * 64 + payload 2) * 64 + payload 3

/-- The character at the front of the bytes. Encoding it again has to give those bytes, which
refuses overlong forms, surrogates and numbers beyond the last code point. -/
def front? (bytes : List UInt8) : Option Char :=
  let c := candidate bytes
  if (String.utf8EncodeChar c).isPrefixOf bytes then some c else none

theorem eq_append_of_front? {bytes : List UInt8} {c : Char} (h : front? bytes = some c) :
    ∃ rest, bytes = String.utf8EncodeChar c ++ rest := by
  simp only [front?] at h
  split at h
  · next encoded =>
    obtain ⟨rest, hrest⟩ := List.isPrefixOf_iff_prefix.1 encoded
    rw [Option.some.injEq] at h
    exact ⟨rest, by rw [← hrest, h]⟩
  · simp at h

end Glyph

namespace Text

def ofString (s : String) : Text := s.toList.map .scalar

def toBytes (t : Text) : List UInt8 := t.flatMap Glyph.toBytes

/-- Decoding from the left. The first `skip` bytes belong to the character decoded last. -/
def decodeFrom (decoded : Text) (skip : Nat) : List UInt8 → Text
  | [] => decoded.reverse
  | b :: bytes =>
    match skip with
    | k + 1 => decodeFrom decoded k bytes
    | 0 =>
      match Glyph.front? (b :: bytes) with
      | some c => decodeFrom (.scalar c :: decoded) (c.utf8Size - 1) bytes
      | none => decodeFrom (.stray b :: decoded) 0 bytes

def ofBytes (bytes : List UInt8) : Text := decodeFrom [] 0 bytes

@[simp] theorem toBytes_nil : toBytes [] = [] := rfl

@[simp] theorem toBytes_cons (g : Glyph) (t : Text) : toBytes (g :: t) = g.toBytes ++ toBytes t :=
  rfl

@[simp] theorem toBytes_append (s t : Text) : toBytes (s ++ t) = toBytes s ++ toBytes t := by
  simp [toBytes]

theorem toBytes_decodeFrom (decoded : Text) (skip : Nat) (bytes : List UInt8) :
    (decodeFrom decoded skip bytes).toBytes = toBytes decoded.reverse ++ bytes.drop skip := by
  induction bytes generalizing decoded skip with
  | nil => simp [decodeFrom]
  | cons b bytes ih =>
    cases skip with
    | succ k => simp [decodeFrom, ih]
    | zero =>
      simp only [decodeFrom]
      split
      · next c hc =>
        obtain ⟨rest, hrest⟩ := Glyph.eq_append_of_front? hc
        have hlen : (String.utf8EncodeChar c).length = c.utf8Size - 1 + 1 := by
          have := c.utf8Size_pos
          rw [String.length_utf8EncodeChar]
          omega
        have hdrop : bytes.drop (c.utf8Size - 1) = rest := by
          rw [← List.drop_succ_cons (a := b), hrest, List.drop_left' hlen]
        rw [ih, hdrop, List.drop_zero, hrest]
        simp [Glyph.toBytes]
      · rw [ih]
        simp [Glyph.toBytes]

/-- Decoding loses nothing. -/
theorem toBytes_ofBytes (bytes : List UInt8) : (ofBytes bytes).toBytes = bytes := by
  simp [ofBytes, toBytes_decodeFrom]

def le (s t : Text) : Bool := decide (s.toBytes ≤ t.toBytes)

end Text

end Rv32i
