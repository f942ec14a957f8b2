import ScopeLint.Command.Basic
import ScopeLint.Config.File
import ScopeLint.Display.Json
import ScopeLint.Display.Problems
import ScopeLint.Display.RuleTable
import ScopeLint.Ignore.Filter
import ScopeLint.Lint.Files
import ScopeLint.Rule.Builtin

/-!
# Running commands

A command is run on the files of a directory, and gives what is printed, the
status that the program ends with, and the files after the run.  The status is 1
for problems that fail a run and for errors that end it, and 2 for arguments that
cannot be read.
-/

namespace ScopeLint

open Syntax (Grammar)

/-- What a command is run in. -/
structure Environment where
  /-- The files, as they are seen from the working directory. -/
  files : FileSystem
  /-- The parser. -/
  grammar : Grammar
  /-- Whether only results are printed. -/
  bare : Bool
  /-- What walks directories. -/
  ignore : IgnoreLibrary := .gitignore
  /-- What reads and writes settings. -/
  documents : DocumentFormat := .toml

/-- A text that is printed. -/
inductive Print where
  /-- One or more lines. -/
  | lines (text : String)
  /-- A line that ends with the time that the run has taken. -/
  | timed (text : String)
  deriving DecidableEq, Repr

/-- What a run gives. -/
structure Outcome where
  /-- The status of the program. -/
  status : Nat
  /-- What is printed as output. -/
  output : List Print
  /-- What is printed as errors. -/
  errors : List String
  /-- The files after the run. -/
  files : FileSystem

namespace Outcome

/-- A run that an error ends. -/
def failed (files : FileSystem) (output : List Print) (message : String) : Outcome :=
  ⟨1, output, ["Error: " ++ message], files⟩

/-- A run that succeeds. -/
def succeeded (files : FileSystem) (output : List Print) : Outcome := ⟨0, output, [], files⟩

end Outcome

namespace Settings.LoadFault

/-- The text of a loading failure. -/
def message : LoadFault → String
  | unreadable fault => fault.message
  | rejected .malformed => "TOML: not a settings document"
  | rejected (.notAllowed e) => "TOML: " ++ e.message

end Settings.LoadFault

namespace Command

/-- Whether a value of the variable that asks for bare output does so. -/
def asksBare (value : Option String) : Bool :=
  value.any fun s => s = "1" || s.toLower = "true"

/-- The linter of the settings file at a path, or of the default settings if there
is none, with what is to be changed in the settings; and whether there is a
file. -/
def linterAt (environment : Environment) (path : Path) (change : Settings → Settings) :
    Except String (Linter × Bool) := do
  let loaded ← (environment.documents.load environment.files path).mapError (·.message)
  let linter ← (Linter.ofRules (change (loaded.getD .default)) .builtin).mapError (·.message)
  return (linter, loaded.isSome)

/-! ## Linting -/

/-- The lines above the results of a run. -/
def heading (configName : String) (linter : Linter) : List Print :=
  [.lines "🔍 Checking for uses of undefined", .lines ("ℹ️ Config: " ++ configName),
    .lines ("ℹ️ Source type: " ++ linter.settings.sourceType.name)]

/-- The files to lint at some paths, each once by the components of its path; the
first path at which there is nothing, if any. -/
def filesToLint (library : IgnoreLibrary) (files : FileSystem) (settings : Settings)
    (paths : List Path) : Except Path (List Path) :=
  match paths.find? fun path => !files.contains path with
  | some path => .error path
  | none => .ok (Path.dropRepeated (Path.sort (paths.flatMap (settings.collect library files))))

/-- The results of a run. -/
def results (format : Format) (decorated : Bool) (reports : List FileReport) (summary : Summary) :
    List Print :=
  match format with
  | .json => [.lines ((JsonValue.list (reports.map .ofReport)).write 0)]
  | .text =>
    ((reports.filter (!·.isClean)).map fun report =>
      .lines (Display.showFile .plain report)) ++
    if decorated || summary.problems > 0 then [.lines (Display.showSummary .plain summary)] else []

/-- The notes on failures of a run. -/
def notes (decorated : Bool) (maxWarnings : Option Nat) (summary : Summary) : List String :=
  if decorated then
    (if summary.fatal > 0 then [s!"❌ {summary.fatal} file(s) could not be linted"] else []) ++
    (if summary.isFailure maxWarnings && summary.errors = 0 then
      [s!"⚠️ Too many warnings (maximum: {maxWarnings.getD 0})"]
    else [])
  else []

/-- The reports that a run shows and counts. -/
def shownReports (quiet : Bool) (reports : List FileReport) : List FileReport :=
  if quiet then reports.map (·.errorsOnly) else reports

/-- Runs the command that lints files. -/
def runCheck (environment : Environment) (options : CheckOptions) : Outcome :=
  let files := environment.files
  let configPath := options.config.getD Settings.fileName
  let change (settings : Settings) : Settings :=
    { settings with sourceType := options.sourceType.getD settings.sourceType }
  match linterAt environment configPath change with
  | .error message => .failed files [] message
  | .ok (linter, configured) =>
    let decorated := options.format = .text && !environment.bare
    let configName := if configured then configPath else "built-in defaults"
    let head := if decorated then heading configName linter else []
    match filesToLint environment.ignore files linter.settings options.paths with
    | .error path => .failed files head ("no such file or directory: " ++ path)
    | .ok paths =>
      let reports := shownReports options.quiet (linter.lintFiles environment.grammar files paths)
      let summary := Summary.ofReports reports
      let time : List Print :=
        if decorated then [.timed s!"⏱️ Linted {paths.length} file(s) in "] else []
      { status := if summary.isFailure options.maxWarnings then 1 else 0
        output := head ++ time ++ results options.format decorated reports summary
        errors := notes decorated options.maxWarnings summary
        files }

/-! ## Other commands -/

/-- Runs the command that lists the rules. -/
def runRules (environment : Environment) (config : Option Path) (format : Format) : Outcome :=
  let files := environment.files
  match linterAt environment (config.getD Settings.fileName) id with
  | .error message => .failed files [] message
  | .ok (linter, _) =>
    let listing :=
      match format with
      | .text => RuleTable.render linter.settings linter.registry
      | .json =>
        (JsonValue.list (linter.registry.map fun rule =>
          .ofRule rule.info (linter.settings.severity rule.name))).write 0
    .succeeded files [.lines listing]

/-- Runs the command that writes a settings file. -/
def runInit (environment : Environment) (force : Bool) : Outcome :=
  match environment.documents.save environment.files Settings.fileName .default force with
  | .error fault => .failed environment.files [] fault.message
  | .ok files => .succeeded files [.lines ("✅ Wrote " ++ Settings.fileName)]

/-- The name of the program with its version. -/
def versionText : String := "undeflint 0.1.0"

/-- **Runs a command.** -/
def run (environment : Environment) : Command → Outcome
  | check options => runCheck environment options
  | rules config format => runRules environment config format
  | init force => runInit environment force
  | version => .succeeded environment.files [.lines versionText]

/-- **Runs the command of some arguments.** -/
def runArguments (environment : Environment) (arguments : List String) : Outcome :=
  match ofArguments? arguments with
  | some command => command.run environment
  | none => ⟨2, [], [], environment.files⟩

end Command

end ScopeLint
