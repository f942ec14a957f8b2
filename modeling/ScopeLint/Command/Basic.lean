import ScopeLint.Command.Arguments
import ScopeLint.Files.Path
import ScopeLint.Syntax.SourceType

/-!
# Commands

What the program can be asked to do: lint files, list the rules, write a settings
file, or tell its version.
-/

namespace ScopeLint

open Syntax (SourceType)

/-- How results are shown. -/
inductive Format where
  /-- For people. -/
  | text
  /-- For other programs. -/
  | json
  deriving DecidableEq, Repr, Inhabited

/-- The format of a name. -/
def Format.ofName? : String → Option Format
  | "text" => some text
  | "json" => some json
  | _ => none

/-- How files are to be linted. -/
structure CheckOptions where
  /-- The files and directories. -/
  paths : List Path
  /-- The settings file, where it is not the usual one. -/
  config : Option Path
  /-- How the results are shown. -/
  format : Format
  /-- The source type to use in place of the configured one. -/
  sourceType : Option SourceType
  /-- Whether only errors are shown. -/
  quiet : Bool
  /-- The most warnings that a run may have. -/
  maxWarnings : Option Nat
  deriving DecidableEq, Repr, Inhabited

/-- A command. -/
inductive Command where
  /-- Lints files. -/
  | check (options : CheckOptions)
  /-- Lists the rules with their severities. -/
  | rules (config : Option Path) (format : Format)
  /-- Writes the default settings, over a settings file if forced. -/
  | init (force : Bool)
  /-- Tells the version. -/
  | version
  deriving DecidableEq, Repr, Inhabited

namespace Command

/-! ## Values of options -/

/-- A path, which is not empty. -/
def path? (s : String) : Option Path := if s.isEmpty then none else some s

/-- The number of a text of digits, after a plus sign if there is one, below
2 ^ 64. -/
def number? (s : String) : Option Nat :=
  let digits :=
    match s.toList with
    | '+' :: rest => rest
    | chars => chars
  if digits.isEmpty || !digits.all Char.isDigit then none
  else
    let n := digits.foldl (fun n c => n * 10 + (c.toNat - 48)) 0
    if n ≤ 0xffffffffffffffff then some n else none

/-- The value of an option that may be left out; none when it cannot be read. -/
def optional? {α : Type} (read : String → Option α) : Option String → Option (Option α)
  | none => some none
  | some s => (read s).map some

/-- The format given, or the usual one. -/
def format? (arguments : Arguments) : Option Format :=
  (optional? Format.ofName? (arguments.value? "format")).map (·.getD .text)

/-- The settings file given. -/
def config? (arguments : Arguments) : Option (Option Path) :=
  optional? path? (arguments.value? "config")

/-! ## Commands -/

def verboseOption : CommandOption := ⟨"verbose", some 'v', false⟩
def configOption : CommandOption := ⟨"config", some 'c', true⟩
def formatOption : CommandOption := ⟨"format", some 'f', true⟩
def sourceTypeOption : CommandOption := ⟨"source-type", none, true⟩
def quietOption : CommandOption := ⟨"quiet", some 'q', false⟩
def maxWarningsOption : CommandOption := ⟨"max-warnings", none, true⟩
def forceOption : CommandOption := ⟨"force", none, false⟩

/-- Reads the arguments of the command that lints files; without operands the
directory itself is linted. -/
def readCheck (arguments : List String) : Option Command := do
  let found ← Arguments.read
    [verboseOption, configOption, formatOption, sourceTypeOption, quietOption, maxWarningsOption]
    arguments
  let paths ← found.operands.mapM path?
  let config ← config? found
  let format ← format? found
  let sourceType ←
    optional? (fun s => (SourceType.ofName s).toOption) (found.value? "source-type")
  let maxWarnings ← optional? number? (found.value? "max-warnings")
  some (.check
    { paths := if paths.isEmpty then ["."] else paths
      config, format, sourceType, quiet := found.has "quiet", maxWarnings })

/-- Reads the arguments of the command that lists the rules. -/
def readRules (arguments : List String) : Option Command := do
  let found ← Arguments.read [verboseOption, configOption, formatOption] arguments
  let config ← config? found
  let format ← format? found
  if found.operands.isEmpty then some (.rules config format) else none

/-- Reads the arguments of the command that writes a settings file. -/
def readInit (arguments : List String) : Option Command := do
  let found ← Arguments.read [verboseOption, forceOption] arguments
  if found.operands.isEmpty then some (.init (found.has "force")) else none

/-- What short options before a command say. -/
inductive Leading where
  /-- The version is asked for. -/
  | version
  /-- The run is to be told in detail. -/
  | verbose
  deriving DecidableEq, Repr

/-- Reads short options before a command, where `verbose` tells whether that
option was given. -/
def readLeading (verbose : Bool) : List Char → Option Leading
  | [] => none
  | 'V' :: _ => some .version
  | 'v' :: rest =>
    if verbose then none else if rest.isEmpty then some .verbose else readLeading true rest
  | _ => none

/-- Reads a command after the options before it. -/
def readFrom (verbose : Bool) : List String → Option Command
  | [] => none
  | "check" :: rest => readCheck rest
  | "rules" :: rest => readRules rest
  | "init" :: rest => readInit rest
  | "--version" :: _ => some .version
  | "--verbose" :: rest => if verbose then none else readFrom true rest
  | argument :: rest =>
    match argument.toList with
    | '-' :: names =>
      match readLeading verbose names with
      | some .version => some .version
      | some .verbose => readFrom true rest
      | none => none
    | _ => none

/-- **The command of some arguments**; none when they cannot be read. -/
def ofArguments? (arguments : List String) : Option Command := readFrom false arguments

end Command

end ScopeLint
