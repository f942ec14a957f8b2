import ScopeLint.Rule.Basic
import ScopeLint.Scope.Analysis
import ScopeLint.Text.Quoted

/-!
# Testing rules

A rule is tested on snippets: valid ones, on which it must report nothing, and
invalid ones, on which it must report exactly the expected problems in the order
in which they stand in the snippet.  A test stops at the first thing that is not
as expected.
-/

namespace ScopeLint

open Syntax (Grammar Program SourceType)

/-- A problem that an invalid snippet must have. -/
structure ExpectedError where
  /-- Its message. -/
  message : String
  /-- The names of the kinds that its node may have; any kind when there are
  none. -/
  nodeKinds : List String
  /-- Its line, counted from 1, where it matters. -/
  line : Option Nat
  /-- Its column, counted from 1, where it matters. -/
  column : Option Nat
  deriving DecidableEq, Repr, Inhabited

/-- A snippet on which a rule must report problems. -/
structure InvalidSnippet where
  /-- The snippet. -/
  code : String
  /-- Its problems in order. -/
  errors : List ExpectedError
  deriving DecidableEq, Repr, Inhabited

/-- How a test of a rule can fail. -/
inductive TestFailure where
  /-- A snippet is not well formed. -/
  | notParsed (code : String) (e : Error)
  /-- The scopes of a snippet are malformed. -/
  | malformed (code : String) (e : Error)
  /-- A valid snippet has problems. -/
  | notValid (rule code : String) (reports : List Report)
  /-- An invalid snippet has another number of problems. -/
  | wrongCount (rule code : String) (expected : Nat) (reports : List Report)
  /-- The problem at an index has another message. -/
  | wrongMessage (rule code : String) (index : Nat) (found expected : String)
  /-- The problem at an index has a node of another kind. -/
  | wrongKind (rule code : String) (index : Nat) (found : String) (expected : List String)
  /-- The problem at an index is on another line. -/
  | wrongLine (rule code : String) (index found expected : Nat)
  /-- The problem at an index is in another column. -/
  | wrongColumn (rule code : String) (index found expected : Nat)
  deriving DecidableEq, Repr

namespace TestFailure

/-- A problem in one line. -/
def describe (report : Report) : String :=
  s!"{report.node.start.line + 1}:{report.node.start.column + 1} {report.message}"

/-- Two values that should be the same, with what they are. -/
def unequal (what found expected : String) : String :=
  "assertion `left == right` failed: " ++ what ++ "\n  left: " ++ found ++ "\n right: " ++ expected

/-- The problem at an index of a snippet. -/
def place (rule code : String) (index : Nat) : String :=
  s!"[{rule}] {Quoted.quote code} error #{index}: "

/-- The text of a failure. -/
def message : TestFailure → String
  | notParsed code e => s!"snippet does not parse: {Quoted.quote code}\n  {e.message}"
  | malformed code e => s!"malformed scope tree for {Quoted.quote code}: {e.message}"
  | notValid rule code reports =>
    s!"[{rule}] valid snippet {Quoted.quote code} produced {reports.length} report(s): " ++
      Quoted.quoteAll (reports.map describe)
  | wrongCount rule code expected reports =>
    unequal
      (s!"[{rule}] invalid snippet {Quoted.quote code} expected {expected} error(s), got " ++
        Quoted.quoteAll (reports.map describe))
      (toString reports.length) (toString expected)
  | wrongMessage rule code index found expected =>
    unequal (place rule code index ++ "wrong message") (Quoted.quote found)
      (Quoted.quote expected)
  | wrongKind rule code index found expected =>
    place rule code index ++
      s!"wrong node kind {Quoted.quote found}, expected one of {Quoted.quoteAll expected}"
  | wrongLine rule code index found expected =>
    unequal (place rule code index ++ "wrong line") (toString found) (toString expected)
  | wrongColumn rule code index found expected =>
    unequal (place rule code index ++ "wrong column") (toString found) (toString expected)

end TestFailure

namespace Rule

/-- Reports in the order of their places; those at one place keep the order
found. -/
def inSourceOrder (reports : List Report) : List Report :=
  reports.mergeSort fun a b => a.node.span.start ≤ b.node.span.start

/-- The reports of a rule on a snippet, in the order of their places. -/
def reportsOn (rule : Rule) (grammar : Grammar) (sourceType : SourceType) (code : String) :
    Except TestFailure (List Report) := do
  let program ← (Program.ofText grammar sourceType code).mapError (.notParsed code)
  let tree := analyze program
  tree.validate.mapError (.malformed code)
  return inSourceOrder (rule.check tree)

/-- Accepts what is as expected. -/
def require (ok : Bool) (failure : TestFailure) : Except TestFailure Unit :=
  if ok then .ok () else .error failure

/-- Tests a report against what is expected at its index. -/
def testReport (rule : Rule) (code : String) (report : Report) (expected : ExpectedError)
    (index : Nat) : Except TestFailure Unit := do
  let line := report.node.start.line + 1
  let column := report.node.start.column + 1
  let kind := report.node.kind.name
  require (report.message == expected.message)
    (.wrongMessage rule.name code index report.message expected.message)
  require (expected.nodeKinds.isEmpty || expected.nodeKinds.contains kind)
    (.wrongKind rule.name code index kind expected.nodeKinds)
  require (expected.line.all (line == ·))
    (.wrongLine rule.name code index line (expected.line.getD 0))
  require (expected.column.all (column == ·))
    (.wrongColumn rule.name code index column (expected.column.getD 0))

/-- Tests a rule on a valid snippet. -/
def testValid (rule : Rule) (grammar : Grammar) (sourceType : SourceType) (code : String) :
    Except TestFailure Unit := do
  let reports ← rule.reportsOn grammar sourceType code
  require reports.isEmpty (.notValid rule.name code reports)

/-- Tests a rule on an invalid snippet. -/
def testInvalid (rule : Rule) (grammar : Grammar) (sourceType : SourceType)
    (snippet : InvalidSnippet) : Except TestFailure Unit := do
  let reports ← rule.reportsOn grammar sourceType snippet.code
  require (reports.length == snippet.errors.length)
    (.wrongCount rule.name snippet.code snippet.errors.length reports)
  ((reports.zip snippet.errors).zipIdx).forM fun ((report, expected), index) =>
    rule.testReport snippet.code report expected index

/-- **Tests a rule on snippets**, the valid ones first. -/
def test (rule : Rule) (grammar : Grammar) (sourceType : SourceType) (valid : List String)
    (invalid : List InvalidSnippet) : Except TestFailure Unit := do
  valid.forM (rule.testValid grammar sourceType)
  invalid.forM (rule.testInvalid grammar sourceType)

end Rule

end ScopeLint
