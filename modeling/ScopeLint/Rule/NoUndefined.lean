import ScopeLint.Rule.Basic
import ScopeLint.Scope.Inspection

/-!
# The rule `no-undefined`

The word `undefined` names an ordinary variable that a program may declare, so
every use of it as a name is reported.  A use that no declaration captures is a
use that no scope resolves.  Where a scope declares the name, its uses are
reported and then its declarations; a use by which a declaration gives the first
value shares its node with that declaration and is not reported again.
-/

namespace ScopeLint.NoUndefined

/-- The name that is reported. -/
def word : String := "undefined"

/-- The text of every report. -/
def message : String := "Unexpected use of undefined."

/-- What the rule says of itself. -/
def info : RuleInfo where
  name := "no-undefined"
  description := "disallow the use of `undefined` as an identifier"
  category := .variableUse
  recommended := false

/-- The identifiers of a scope's binding of the word: its uses other than first
values, then its declarations. -/
def usesIn (scope : Scope) : List Syntax.Identifier :=
  match scope.binding? word with
  | none => []
  | some b =>
    (b.references.filter (!·.init)).map (·.identifier) ++ b.definitions.map (·.name)

/-- The identifiers of the uses that no declaration captures. -/
def freeUses (tree : ScopeTree) : List Syntax.Identifier :=
  (tree.unresolved.filter (·.name == word)).map (·.identifier)

/-- The identifiers of the bindings of the word, scope by scope in the order
inspected. -/
def boundUses (tree : ScopeTree) : List Syntax.Identifier :=
  match tree.inspectionOrder with
  | .ok ids => ids.flatMap fun id => ((tree.scope? id).map usesIn).getD []
  | .error _ => []

/-- **The rule.** -/
def rule : Rule where
  info
  check tree := (freeUses tree ++ boundUses tree).map (⟨·, message⟩)

end ScopeLint.NoUndefined
