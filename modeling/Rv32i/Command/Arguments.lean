import Rv32i.Command.Execution

/-!
# Arguments

One reader of arguments, from left to right. Flags and sources mix; a double dash ends the flags; of
a flag given twice the last value counts. The first fault ends the reading. Nothing that is shown of
a run with its options known depends on this reader.
-/

set_option autoImplicit false

namespace Rv32i.Command

open Text (ofString)

inductive Flag where
  | output
  | format
  | annotate
  | symbols
  | help
  deriving DecidableEq

namespace Flag

def all : List Flag := [output, format, annotate, symbols, help]

def name : Flag → Text
  | output => ofString "output"
  | format => ofString "format"
  | annotate => ofString "annotate"
  | symbols => ofString "symbols"
  | help => ofString "help"

def letter? : Flag → Option Glyph
  | output => some (.scalar 'o')
  | format => some (.scalar 'f')
  | help => some (.scalar 'h')
  | annotate | symbols => none

def ofName? (t : Text) : Option Flag := all.find? (·.name == t)

def ofLetter? (g : Glyph) : Option Flag := all.find? (·.letter? == some g)

def label (flag : Flag) : Text :=
  match flag.letter? with
  | some g => .scalar '-' :: g :: ofString ", --" ++ flag.name
  | none => ofString "--" ++ flag.name

/-- A switch is on when it is given, and takes a value only after an equals sign. -/
def isSwitch : Flag → Bool
  | output | format => false
  | annotate | symbols | help => true

end Flag

inductive UsageFault where
  | malformedFlag (argument : Text)
  | unknownFlag (name : Text)
  | unknownLetter (cluster : Text)
  | missingValue (argument : Text)
  | missingLetterValue (cluster : Text)
  | invalidSwitch (flag : Flag) (value : Text)
  | tooManySources (count : Nat)
  deriving DecidableEq

namespace UsageFault

def leadingByte (cluster : Text) : Text :=
  Quoted.character (Char.ofNat ((cluster.toBytes.headD 0).toNat))

def message : UsageFault → Text
  | malformedFlag argument => ofString "bad flag syntax: " ++ argument
  | unknownFlag name => ofString "unknown flag: --" ++ name
  | unknownLetter cluster =>
    ofString "unknown shorthand flag: " ++ leadingByte cluster ++ ofString " in -" ++ cluster
  | missingValue argument => ofString "flag needs an argument: " ++ argument
  | missingLetterValue cluster =>
    ofString "flag needs an argument: " ++ leadingByte cluster ++ ofString " in -" ++ cluster
  | invalidSwitch flag value =>
    ofString "invalid argument " ++ value.quoted ++ ofString " for " ++ flag.label.quoted ++
      ofString " flag: strconv.ParseBool: parsing " ++ value.quoted ++ ofString ": invalid syntax"
  | tooManySources count =>
    ofString "accepts at most 1 arg(s), received " ++ Numeral.decimal count

end UsageFault

structure Settings where
  options : Options := {}
  help : Bool := false
  sources : List Text := []
  deriving DecidableEq

def switchValue? (t : Text) : Option Bool :=
  if (["1", "t", "T", "TRUE", "true", "True"].map ofString).contains t then some true
  else if (["0", "f", "F", "FALSE", "false", "False"].map ofString).contains t then some false
  else none

namespace Settings

def switch (flag : Flag) (value : Text) : Except UsageFault Bool :=
  match switchValue? value with
  | some b => .ok b
  | none => .error (.invalidSwitch flag value)

def set (s : Settings) (flag : Flag) (value : Text) : Except UsageFault Settings := do
  match flag with
  | .output => return { s with options.output := value }
  | .format => return { s with options.format := value }
  | .annotate => return { s with options.annotate := ← switch flag value }
  | .symbols => return { s with options.symbols := ← switch flag value }
  | .help => return { s with help := ← switch flag value }

def setAll (s : Settings) (made : List (Flag × Text)) : Except UsageFault Settings :=
  made.foldlM (fun s setting => s.set setting.1 setting.2) s

end Settings

/-- What one argument asks for. A flag whose value is the next argument brings the fault to report
when there is none. -/
inductive Argument where
  | source
  | flagsEnd
  | settings (made : List (Flag × Text))
  | awaiting (made : List (Flag × Text)) (flag : Flag) (absent : UsageFault)
  deriving DecidableEq

namespace Argument

def after (setting : Flag × Text) : Argument → Argument
  | source => source
  | flagsEnd => flagsEnd
  | settings made => settings (setting :: made)
  | awaiting made flag absent => awaiting (setting :: made) flag absent

def long (argument body : Text) : Except UsageFault Argument :=
  let name := body.takeWhile (· != .scalar '=')
  match Flag.ofName? name, body.dropWhile (· != .scalar '=') with
  | none, _ => .error (.unknownFlag name)
  | some flag, _ :: value => .ok (settings [(flag, value)])
  | some flag, [] =>
    .ok (if flag.isSwitch then settings [(flag, ofString "true")]
      else awaiting [] flag (.missingValue argument))

/-- The value behind an equals sign. A sign at the very end introduces none. -/
def assigned? : Text → Option Text
  | .scalar '=' :: g :: value => some (g :: value)
  | _ => none

/-- Flags by letter. A switch may be followed by more letters; the value of another flag takes up
the rest of the argument, after an optional equals sign. Letters that begin with `test.` belong to
a test runner and are passed over. -/
def cluster : Text → Except UsageFault Argument
  | [] => .ok (settings [])
  | letter :: rest =>
    if (ofString "test.").isPrefixOf (letter :: rest) then .ok (settings [])
    else
      match Flag.ofLetter? letter, assigned? rest with
      | none, _ => .error (.unknownLetter (letter :: rest))
      | some flag, some value => .ok (settings [(flag, value)])
      | some flag, none =>
        if flag.isSwitch then return (← cluster rest).after (flag, ofString "true")
        else if rest.isEmpty then .ok (awaiting [] flag (.missingLetterValue [letter]))
        else .ok (settings [(flag, rest)])

def read (argument : Text) : Except UsageFault Argument :=
  match argument with
  | .scalar '-' :: .scalar '-' :: body =>
    match body with
    | [] => .ok flagsEnd
    | .scalar '-' :: _ => .error (.malformedFlag argument)
    | .scalar '=' :: _ => .error (.malformedFlag argument)
    | _ => long argument body
  | .scalar '-' :: letter :: rest => cluster (letter :: rest)
  | _ => .ok source

end Argument

namespace Settings

def readFrom (s : Settings) : List Text → Except UsageFault Settings
  | [] => .ok s
  | argument :: rest => do
    match ← Argument.read argument with
    | .source => readFrom { s with sources := s.sources ++ [argument] } rest
    | .flagsEnd => return { s with sources := s.sources ++ rest }
    | .settings made => readFrom (← s.setAll made) rest
    | .awaiting made flag absent =>
      match rest with
      | [] => throw absent
      | value :: rest => readFrom (← s.setAll (made ++ [(flag, value)])) rest

end Settings

def helpLines : List String := [
  "rv-as assembles RV32I base integer instructions into machine words.",
  "Source is read from the named file, or from stdin when no file or \"-\" is given.",
  "Labels end in ':' and '#' starts a comment.",
  "",
  "Usage:",
  "  rv-as [file.s] [flags]",
  "",
  "Flags:",
  "      --annotate        append the disassembly to listing lines",
  "  -f, --format string   output format: text, listing, meminit, hex or bin (default \"text\")",
  "  -h, --help            help for rv-as",
  "  -o, --output file     write output to file instead of stdout",
  "      --symbols         dump the symbol table to stderr"]

def helpText : Text := helpLines.flatMap fun line => Text.ofString line ++ [.scalar '\n']

/-- Unless help is asked for there is at most one source. -/
def Request.read (arguments : List Text) : Request :=
  match Settings.readFrom {} arguments with
  | .error fault => .invalid fault.message
  | .ok s =>
    if s.help then .help helpText
    else
      match s.sources with
      | [] => .assemble s.options none
      | [source] => .assemble s.options (some source)
      | _ => .invalid (UsageFault.tooManySources s.sources.length).message

end Rv32i.Command
