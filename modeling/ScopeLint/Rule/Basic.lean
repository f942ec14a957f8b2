import ScopeLint.Scope.Tree

/-!
# Rules

A rule looks at the finished scope tree of a program and reports problems at
identifiers.  A registry is a list of rules in the order registered.
-/

namespace ScopeLint

open Syntax (Identifier)

/-- What a rule is about. -/
inductive Category where
  | possibleErrors
  | bestPractices
  | variableUse
  | stylisticIssues
  deriving DecidableEq, Repr, Inhabited

namespace Category

/-- The words for a category in a listing. -/
def title : Category → String
  | possibleErrors => "Possible Errors"
  | bestPractices => "Best Practices"
  | variableUse => "Variables"
  | stylisticIssues => "Stylistic Issues"

/-- The name of a category in data. -/
def name : Category → String
  | possibleErrors => "possible-errors"
  | bestPractices => "best-practices"
  | variableUse => "variables"
  | stylisticIssues => "stylistic-issues"

/-- The category of a name. -/
def ofName? : String → Option Category
  | "possible-errors" => some possibleErrors
  | "best-practices" => some bestPractices
  | "variables" => some variableUse
  | "stylistic-issues" => some stylisticIssues
  | _ => none

end Category

/-- What a rule says of itself. -/
structure RuleInfo where
  /-- The name it is configured by. -/
  name : String
  /-- What it disallows. -/
  description : String
  /-- What it is about. -/
  category : Category
  /-- Whether it belongs to the recommended rules. -/
  recommended : Bool
  deriving DecidableEq, Repr, Inhabited

/-- A problem at an identifier. -/
structure Report where
  /-- Where the problem is. -/
  node : Identifier
  /-- What it is. -/
  message : String
  deriving DecidableEq, Repr, Inhabited

/-- A rule. -/
structure Rule where
  /-- What it says of itself. -/
  info : RuleInfo
  /-- The problems it finds in a program, in the order found. -/
  check : ScopeTree → List Report

/-- The name of a rule. -/
def Rule.name (rule : Rule) : String := rule.info.name

/-- The registered rules, in the order registered. -/
abbrev Registry := List Rule

namespace Registry

/-- The first rule of a name. -/
def rule? (registry : Registry) (name : String) : Option Rule :=
  List.find? (·.name == name) registry

/-- Whether a rule of a name is registered. -/
def knows (registry : Registry) (name : String) : Bool :=
  (registry.rule? name).isSome

end Registry

/-- The rule that reports every use that no scope resolves, with a message. -/
def Rule.unresolvedUses (info : RuleInfo) (message : String) : Rule where
  info
  check tree := tree.unresolved.map fun r => ⟨r.identifier, message⟩

end ScopeLint
