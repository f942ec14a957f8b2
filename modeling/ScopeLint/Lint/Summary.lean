import ScopeLint.Diagnostic
import ScopeLint.Files.Path

/-!
# Reports of files and their totals
-/

namespace ScopeLint

/-- The diagnostics of one file. -/
structure FileReport where
  /-- The file. -/
  path : Path
  /-- Its diagnostics. -/
  messages : List Diagnostic
  deriving DecidableEq, Repr, Inhabited

namespace FileReport

/-- How many diagnostics are errors. -/
def errorCount (report : FileReport) : Nat := report.messages.countP (·.isError)

/-- How many diagnostics are warnings. -/
def warningCount (report : FileReport) : Nat := report.messages.countP (·.isWarning)

/-- How many diagnostics are failures. -/
def fatalCount (report : FileReport) : Nat := report.messages.countP (·.fatal)

/-- Whether nothing was found. -/
def isClean (report : FileReport) : Bool := report.messages.isEmpty

/-- The report without what is no error. -/
def errorsOnly (report : FileReport) : FileReport :=
  { report with messages := report.messages.filter (·.isError) }

end FileReport

/-- The totals of a run. -/
structure Summary where
  /-- The files linted. -/
  files : Nat
  errors : Nat
  warnings : Nat
  /-- The failures. -/
  fatal : Nat
  deriving DecidableEq, Repr, Inhabited

namespace Summary

/-- The totals of no file. -/
def empty : Summary := ⟨0, 0, 0, 0⟩

/-- The totals with one more file. -/
def add (report : FileReport) (s : Summary) : Summary where
  files := s.files + 1
  errors := report.errorCount + s.errors
  warnings := report.warningCount + s.warnings
  fatal := report.fatalCount + s.fatal

/-- The totals of some reports. -/
def ofReports (reports : List FileReport) : Summary := reports.foldr add empty

/-- The errors and warnings together. -/
def problems (s : Summary) : Nat := s.errors + s.warnings

/-- Whether a run fails: on any error, or on more warnings than allowed. -/
def isFailure (s : Summary) (maxWarnings : Option Nat) : Bool :=
  s.errors > 0 || maxWarnings.any (s.warnings > ·)

end Summary

end ScopeLint
