import ScopeLint.Config.Settings
import ScopeLint.Diagnostic
import ScopeLint.Scope.Analysis

/-!
# Linting a program

A linter has settings and registered rules, and the settings name only rules
that are registered.  A program is parsed, its scopes are analysed, and each
enabled rule is run in the order registered.  What stops the work on a program
is told as the only diagnostic.
-/

namespace ScopeLint

open Syntax (Grammar Program SourceType)

/-- A linter. -/
structure Linter where
  /-- Its settings. -/
  settings : Settings
  /-- Its rules. -/
  registry : Registry

namespace Linter

/-- The linter of some settings and rules; refused when the settings name an
unknown rule. -/
def ofRules (settings : Settings) (registry : Registry) : Except Error Linter :=
  (settings.validate registry).map fun _ => ⟨settings, registry⟩

/-- The diagnostics of one rule on the scopes of a program. -/
def runRule (settings : Settings) (tree : ScopeTree) (rule : Rule) : List Diagnostic :=
  let severity := settings.severity rule.name
  if severity.isEnabled then (rule.check tree).map (.ofReport rule.name severity) else []

/-- The diagnostics of a program, or what stops the work on it. -/
def check (linter : Linter) (grammar : Grammar) (text : String) (sourceType : SourceType) :
    Except Error (List Diagnostic) := do
  let program ← Program.ofText grammar sourceType text
  let tree := analyze program
  tree.validate
  return Diagnostic.sort (linter.registry.flatMap (runRule linter.settings tree))

/-- **The diagnostics of a program of a source type.** -/
def verifyAs (linter : Linter) (grammar : Grammar) (text : String) (sourceType : SourceType) :
    List Diagnostic :=
  match linter.check grammar text sourceType with
  | .ok diagnostics => diagnostics
  | .error e => [.ofError e]

/-- The diagnostics of a program of the configured source type. -/
def verify (linter : Linter) (grammar : Grammar) (text : String) : List Diagnostic :=
  linter.verifyAs grammar text linter.settings.sourceType

end Linter

end ScopeLint
