import ScopeLint.Scope.Tree

/-!
# The order in which scopes are inspected

A rule that looks at every scope keeps a stack of scopes to come: it takes the
last one off, puts the children of that scope on, and inspects it.  So a scope
comes before the scopes inside it, and of its children the last comes first.
-/

namespace ScopeLint.ScopeTree

/-- How an inspection can fail on a list of scopes that is no tree. -/
inductive InspectionFault where
  /-- A child is no scope. -/
  | outOfRange (e : OutOfRange)
  /-- More scopes were met than expected. -/
  | unfinished
  deriving DecidableEq, Repr

/-- The scopes inspected from a stack, last first, in at most `fuel` steps. -/
def inspectFrom (t : ScopeTree) : Nat → List ScopeId → Except InspectionFault (List ScopeId)
  | _, [] => .ok []
  | 0, _ :: _ => .error .unfinished
  | fuel + 1, id :: stack =>
    match t.scope? id with
    | none => .error (.outOfRange ⟨t.size, id⟩)
    | some scope => (t.inspectFrom fuel (scope.children.reverse ++ stack)).map (id :: ·)

/-- How many scopes a walk meets that goes down from a scope through `depth`
levels at most. -/
def extent (t : ScopeTree) : Nat → ScopeId → Nat
  | 0, _ => 0
  | depth + 1, id =>
    match t.scope? id with
    | none => 1
    | some scope => scope.children.foldr (fun child n => t.extent depth child + n) 1

/-- The scopes in the order inspected, from the global scope on. -/
def inspectionOrder (t : ScopeTree) : Except InspectionFault (List ScopeId) :=
  t.inspectFrom (t.extent t.size rootId) [rootId]

end ScopeLint.ScopeTree
