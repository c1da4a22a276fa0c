import Rv32i.Program

/-!
# Renderings

The forms in which assembled words are handed on: a listing for people, memory initialisation and
plain hexadecimal for simulators, and the bytes themselves.
-/

set_option autoImplicit false

namespace Rv32i

open Text (ofString)

inductive RenderingFault where
  | unknownFormat (name : Text)
  | noRoom
  deriving DecidableEq

def RenderingFault.message : RenderingFault → Text
  | unknownFormat name => ofString "unknown output format " ++ name.quoted
  | noRoom => ofString "writer full"

namespace Listing

def hex (w : Word) : Text := Numeral.places 16 8 w.toNat

def line (annotate : Bool) (w : PlacedWord) : Text :=
  ofString "0x" ++ hex w.address ++ ofString ": 0x" ++ hex w.value ++ ofString " 0b" ++
    Numeral.places 2 32 w.value.toNat ++
    if annotate then ofString "  # " ++ w.value.disassemble w.address else []

def endLine (t : Text) : Text := t ++ [.scalar '\n']

def listing (annotate : Bool) (words : List PlacedWord) : Text :=
  words.flatMap fun w => endLine (line annotate w)

def initialValue (index : Nat) (w : PlacedWord) : Text :=
  ofString "instr_mem[" ++ Numeral.decimal index ++ ofString "] = 32" ++
    [.scalar (Char.ofNat 0x27)] ++ ofString "h" ++ hex w.value ++ ofString ";"

def memoryImage (words : List PlacedWord) : Text :=
  endLine (ofString "// Memory initialization format") ++
    words.zipIdx.flatMap fun (w, index) => endLine (initialValue index w)

def hexLines (words : List PlacedWord) : Text := words.flatMap fun w => endLine (hex w.value)

end Listing

inductive Rendering where
  | text
  | listing
  | meminit
  | hex
  | bin
  deriving DecidableEq

namespace Rendering

def all : List Rendering := [text, listing, meminit, hex, bin]

def name : Rendering → Text
  | text => ofString "text"
  | listing => ofString "listing"
  | meminit => ofString "meminit"
  | hex => ofString "hex"
  | bin => ofString "bin"

def ofName (name : Text) : Except RenderingFault Rendering :=
  match all.find? (·.name == name) with
  | some r => .ok r
  | none => .error (.unknownFormat name)

def parse (name : Text) : Except RenderingFault Rendering :=
  match all.find? (·.name == name.lower) with
  | some r => .ok r
  | none => .error (.unknownFormat name)

def render (r : Rendering) (annotate : Bool) (words : List PlacedWord) : List UInt8 :=
  match r with
  | text =>
    (Listing.listing annotate words ++ ofString "\n\n" ++ Listing.memoryImage words).toBytes
  | listing => (Listing.listing annotate words).toBytes
  | meminit => (Listing.memoryImage words).toBytes
  | hex => (Listing.hexLines words).toBytes
  | bin => words.flatMap (·.value.littleEndian)

def renderWithin (r : Rendering) (room : Option Nat) (annotate : Bool) (words : List PlacedWord) :
    Except RenderingFault (List UInt8) :=
  let bytes := r.render annotate words
  if room.any (· < bytes.length) then .error .noRoom else .ok bytes

end Rendering

end Rv32i
