import ScopeLint.Rule.Basic
import ScopeLint.Severity

/-!
# Diagnostics

A diagnostic is a problem in one file: the report of a rule, with the severity
that the rule has there, or a failure that kept the file from being linted.
-/

namespace ScopeLint

/-- A problem in one file. -/
structure Diagnostic where
  /-- The rule that found it; none for a failure. -/
  rule : Option String
  /-- How seriously it is taken. -/
  severity : Severity
  /-- What it is. -/
  message : String
  /-- Its line, counted from 1. -/
  line : Nat
  /-- Its UTF-16 column, counted from 1. -/
  column : Nat
  /-- The octet at which its node starts. -/
  offset : Nat
  /-- The octet at which its node ends. -/
  stop : Nat
  /-- The name of its node's kind. -/
  nodeKind : Option String
  /-- Whether it is a failure. -/
  fatal : Bool
  deriving DecidableEq, Repr, Inhabited

namespace Diagnostic

/-- A report of a rule, in its file. -/
def ofReport (rule : String) (severity : Severity) (report : Report) : Diagnostic where
  rule := some rule
  severity
  message := report.message
  line := report.node.start.line + 1
  column := report.node.start.column + 1
  offset := report.node.span.start
  stop := report.node.span.stop
  nodeKind := some report.node.kind.name
  fatal := false

/-- A failure at a line and column. -/
def failure (message : String) (line column : Nat) : Diagnostic where
  rule := none
  severity := .error
  message
  line
  column
  offset := 0
  stop := 0
  nodeKind := none
  fatal := true

/-- What an error on a file is told as: at its place if the program is not well
formed, at the start of the file otherwise. -/
def ofError : Error → Diagnostic
  | .badProgram line column message => failure s!"Parsing error: {message}" line column
  | e => failure e.message 1 1

/-- Whether a diagnostic counts as an error. -/
def isError (d : Diagnostic) : Bool := d.severity == .error

/-- Whether a diagnostic counts as a warning. -/
def isWarning (d : Diagnostic) : Bool := d.severity == .warn

/-- Whether a diagnostic may stand before another: by line, then by column, then
failures first. -/
def precedes (a b : Diagnostic) : Bool :=
  a.line < b.line ||
    (a.line == b.line &&
      (a.column < b.column || (a.column == b.column && (a.fatal || !b.fatal))))

/-- Diagnostics in the order in which they are told; those at one place keep the
order found. -/
def sort (ds : List Diagnostic) : List Diagnostic := ds.mergeSort precedes

end Diagnostic

end ScopeLint
