import ScopeLint.Error
import ScopeLint.Scope.Basic

/-!
# Scope trees

All scopes of a program are kept in one list, in the order opened; a scope's id
is its place there, and the global scope comes first.  The operations here are
total: one that is given the id of no scope changes nothing.  `Checked` has the
same operations for callers whose ids may be wrong, and tells them so.
-/

namespace ScopeLint

/-- The scopes of a program. -/
structure ScopeTree where
  /-- All scopes, the global one first. -/
  scopes : List Scope
  deriving DecidableEq, Repr, Inhabited

namespace ScopeTree

/-- The id of the global scope. -/
def rootId : ScopeId := 0

/-- The tree that holds the global scope alone. -/
def ofSpan (span : Span) : ScopeTree := ⟨[Scope.empty rootId .global none span]⟩

/-- How many scopes there are. -/
def size (t : ScopeTree) : Nat := t.scopes.length

/-- The scope of an id. -/
def scope? (t : ScopeTree) (id : ScopeId) : Option Scope := t.scopes[id]?

/-- Changes the scope of an id. -/
def update (t : ScopeTree) (id : ScopeId) (f : Scope → Scope) : ScopeTree :=
  ⟨t.scopes.modify id f⟩

/-- Opens a scope at the end of the list, inside `parent`. -/
def add (t : ScopeTree) (parent : ScopeId) (kind : ScopeKind) (span : Span) : ScopeTree :=
  (⟨t.scopes ++ [Scope.empty t.size kind (some parent) span]⟩ : ScopeTree).update parent
    (·.adopt t.size)

/-- Declares a name in a scope. -/
def define (t : ScopeTree) (id : ScopeId) (d : Definition) : ScopeTree :=
  t.update id (·.define d)

/-- The binding of a name in a scope. -/
def binding? (t : ScopeTree) (id : ScopeId) (name : String) : Option Binding :=
  (t.scope? id).bind (·.binding? name)

/-- Gives a use to the binding of its name in a scope; none when the scope
declares no such name. -/
def resolve? (t : ScopeTree) (id : ScopeId) (r : Reference) : Option ScopeTree :=
  (t.binding? id r.name).map fun _ => t.update id (·.resolve r)

/-- Records a use that a scope does not resolve. -/
def pass (t : ScopeTree) (id : ScopeId) (r : Reference) : ScopeTree :=
  t.update id (·.pass r)

/-- The uses that no scope resolved. -/
def unresolved (t : ScopeTree) : List Reference :=
  ((t.scope? rootId).map (·.through)).getD []

/-! ## The scope that declarations by `var` go to -/

/-- The nearest variable scope at or above an id, looking at `fuel` scopes at
most; a scope without a parent counts as one.  None when a parent is missing or
the parents go round in a circle. -/
def variableScopeWithin? (t : ScopeTree) : Nat → ScopeId → Option ScopeId
  | 0, _ => none
  | fuel + 1, id => do
    let scope ← t.scope? id
    if scope.kind.isVariableScope then some id
    else
      match scope.parent with
      | some parent => t.variableScopeWithin? fuel parent
      | none => some id

/-- The nearest variable scope at or above an id. -/
def variableScope? (t : ScopeTree) (id : ScopeId) : Option ScopeId :=
  t.variableScopeWithin? t.size id

/-! ## Validation -/

/-- What breaks the rules of scope trees at a scope. -/
inductive Malformation where
  /-- A child names another parent, or does not exist. -/
  | strangeChild (child : ScopeId)
  /-- A name is neither declared nor used. -/
  | emptyBinding (name : String)
  /-- A binding holds a use that belongs to another scope. -/
  | strayReference (name : String)
  deriving DecidableEq, Repr

/-- The text of a malformation. -/
def Malformation.message : Malformation → String
  | strangeChild child => s!"child #{child} has another parent"
  | emptyBinding name => s!"binding '{name}' has no definitions and no references"
  | strayReference name => s!"binding '{name}' holds a reference resolved elsewhere"

/-- What is wrong with a child of a scope. -/
def childMalformation? (t : ScopeTree) (scope : Scope) (child : ScopeId) : Option Malformation :=
  if (t.scope? child).bind (·.parent) = some scope.id then none else some (.strangeChild child)

/-- What is wrong with a binding of a scope. -/
def bindingMalformation? (scope : Scope) (b : Binding) : Option Malformation :=
  if b.definitions.isEmpty && b.references.isEmpty then some (.emptyBinding b.name)
  else if b.references.any (·.resolved != some scope.id) then some (.strayReference b.name)
  else none

/-- The first thing wrong with a scope: its children come before its bindings. -/
def malformation? (t : ScopeTree) (scope : Scope) : Option Malformation :=
  scope.children.findSome? (t.childMalformation? scope) <|>
    scope.bindings.findSome? (bindingMalformation? scope)

/-- Accepts a tree whose scopes all keep the rules, or names the first that does
not. -/
def validate (t : ScopeTree) : Except Error Unit :=
  match t.scopes.findSome? fun scope => (t.malformation? scope).map (scope.id, ·) with
  | some (id, malformation) => .error (.malformedScope id malformation.message)
  | none => .ok ()

/-! ## Operations on unchecked ids -/

/-- An id that is not the place of any scope. -/
structure OutOfRange where
  /-- How many scopes there were. -/
  length : Nat
  /-- The id. -/
  index : Nat
  deriving DecidableEq, Repr

/-- The text of an id out of range. -/
def OutOfRange.message (e : OutOfRange) : String :=
  s!"index out of bounds: the len is {e.length} but the index is {e.index}"

namespace Checked

/-- The scope of an id. -/
def scope (t : ScopeTree) (id : ScopeId) : Except OutOfRange Scope :=
  match t.scope? id with
  | some s => .ok s
  | none => .error ⟨t.size, id⟩

/-- Opens a scope.  The new scope is in place before its parent is looked up, so
it may be its own parent, and it counts in what is told of a parent that does not
exist. -/
def add (t : ScopeTree) (parent : ScopeId) (kind : ScopeKind) (span : Span) :
    Except OutOfRange (ScopeTree × ScopeId) :=
  if parent < t.size + 1 then .ok (t.add parent kind span, t.size)
  else .error ⟨t.size + 1, parent⟩

/-- Declares a name in a scope. -/
def define (t : ScopeTree) (id : ScopeId) (d : Definition) : Except OutOfRange ScopeTree :=
  (scope t id).map fun _ => t.define id d

/-- Gives a use to the binding of its name in a scope; none when the scope
declares no such name. -/
def resolve? (t : ScopeTree) (id : ScopeId) (r : Reference) :
    Except OutOfRange (Option ScopeTree) :=
  (scope t id).map fun _ => t.resolve? id r

/-- Records a use that a scope does not resolve. -/
def pass (t : ScopeTree) (id : ScopeId) (r : Reference) : Except OutOfRange ScopeTree :=
  (scope t id).map fun _ => t.pass id r

/-- The nearest variable scope at or above an id, if there is one. -/
def variableScope? (t : ScopeTree) (id : ScopeId) : Except OutOfRange (Option ScopeId) :=
  (scope t id).map fun _ => t.variableScope? id

end Checked

end ScopeTree

end ScopeLint
