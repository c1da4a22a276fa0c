import Rv32i.Command.Files

/-!
# The command line

The operating system as a host, and the entry point that runs the command on it.
-/

set_option autoImplicit false

namespace Rv32i.Command

open Text (ofString)

def systemName (path : Text) : String :=
  String.ofList <| path.map fun
    | .scalar c => c
    | .stray _ => Char.ofNat 0xFFFD

def toByteArray (bytes : List UInt8) : ByteArray := ⟨bytes.toArray⟩

def describe (details : String) : FileReason := .other (ofString details.decapitalize)

def reasonOf : IO.Error → FileReason
  | .noFileOrDirectory .. => .missing
  | .inappropriateType _ _ details => describe details
  | .permissionDenied _ _ details => describe details
  | .invalidArgument _ _ details => describe details
  | .resourceExhausted _ _ details => describe details
  | e => .other (ofString e.toString)

def attempt {α : Type} (operation : FileOperation) (path : Text) (action : IO α) :
    IO (Except FileFault α) := do
  try return .ok (← action)
  catch e => return .error ⟨operation, path, reasonOf e⟩

/-- All that is left to read on a stream, after what was read before. -/
partial def drain (stream : IO.FS.Stream) (before : ByteArray) : IO ByteArray := do
  let bytes ← stream.read 65536
  if bytes.isEmpty then return before else drain stream (before ++ bytes)

def systemHost : Host IO where
  Handle := IO.FS.Handle
  outputIsTerminal := do (← IO.getStdout).isTty
  readInput :=
    attempt .reading (ofString "/dev/stdin") do return (← drain (← IO.getStdin) .empty).toList
  readFile path := do
    match ← attempt .opening path (IO.FS.Handle.mk (systemName path) .read) with
    | .error fault => return .error fault
    | .ok handle =>
      attempt .reading path do return (← handle.readBinToEnd).toList
  createFile path := attempt .opening path (IO.FS.Handle.mk (systemName path) .write)
  write handle bytes := handle.write (toByteArray bytes)
  dump symbols := return dumpTable symbols

end Rv32i.Command

open Rv32i Command in
def main (arguments : List String) : IO UInt32 := do
  let outcome ← run Request.read systemHost (arguments.map Text.ofString)
  (← IO.getStdout).write (toByteArray outcome.output)
  (← IO.getStderr).write (toByteArray outcome.errors.toBytes)
  return UInt32.ofNat outcome.status
