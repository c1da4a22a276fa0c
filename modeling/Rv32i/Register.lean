import Rv32i.Fault
import Rv32i.Text.Lowercase

/-!
# Registers

The 32 integer registers, each with its number and the name the calling convention gives it.
-/

set_option autoImplicit false

namespace Rv32i

open Text (ofString)

abbrev Register := BitVec 5

namespace Register

def conventionNames : List Text :=
  ["zero", "ra", "sp", "gp", "tp", "t0", "t1", "t2", "s0", "s1",
    "a0", "a1", "a2", "a3", "a4", "a5", "a6", "a7",
    "s2", "s3", "s4", "s5", "s6", "s7", "s8", "s9", "s10", "s11",
    "t3", "t4", "t5", "t6"].map ofString

def name (r : Register) : Text := conventionNames.getD r.toNat []

def numberedName (r : Register) : Text := .scalar 'x' :: Numeral.decimal r.toNat

def all : List Register := (List.range 32).map (BitVec.ofNat 5)

/-- Every name in lower case; the frame pointer is a second name of register 8. -/
def names : List (Text × Register) :=
  all.map (fun r => (r.name, r)) ++ all.map (fun r => (r.numberedName, r)) ++
    [(ofString "fp", 8)]

def ofName? (t : Text) : Option Register := names.lookup t

/-- Case and blanks at the ends are ignored. -/
def parse (token : Text) : Except Fault Register :=
  match ofName? token.trim.lower with
  | some r => .ok r
  | none => .error (.unknownRegister token.trim.lower)

end Register

end Rv32i
