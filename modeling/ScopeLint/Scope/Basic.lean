import ScopeLint.Syntax.Identifier

/-!
# Scopes

A scope is a stretch of a program in which names are declared.  It holds one
binding for each name declared in it, and the references that it could not
resolve and handed to the scope around it.
-/

namespace ScopeLint

open Syntax (Identifier)

/-- A scope's place in the list of all scopes of a program. -/
abbrev ScopeId := Nat

/-- What opens a scope. -/
inductive ScopeKind where
  /-- The whole program. -/
  | global
  /-- The whole program, when it is a module. -/
  | module
  /-- A function, from its parameters to its body. -/
  | function
  /-- The name of a named function expression. -/
  | functionExpressionName
  | block
  | switchBody
  | catchClause
  | withBody
  | classBody
  /-- A loop whose head declares by `let` or `const`. -/
  | forLoop
  /-- The value of a class field. -/
  | classFieldInitializer
  /-- A static block of a class. -/
  | classStaticBlock
  deriving DecidableEq, Repr, Inhabited

namespace ScopeKind

/-- Whether declarations by `var` end up in a scope of this kind. -/
def isVariableScope : ScopeKind → Bool
  | global | module | function | classFieldInitializer | classStaticBlock => true
  | _ => false

/-- The name of a kind. -/
def name : ScopeKind → String
  | global => "global"
  | module => "module"
  | function => "function"
  | functionExpressionName => "function-expression-name"
  | block => "block"
  | switchBody => "switch"
  | catchClause => "catch"
  | withBody => "with"
  | classBody => "class"
  | forLoop => "for"
  | classFieldInitializer => "class-field-initializer"
  | classStaticBlock => "class-static-block"

end ScopeKind

/-- The keyword of a variable declaration. -/
inductive Keyword where
  | byVar
  | byLet
  | byConst
  deriving DecidableEq, Repr, Inhabited

/-- What declares a name. -/
inductive DefinitionKind where
  /-- A variable declaration. -/
  | declared (keyword : Keyword)
  | parameter
  | functionName
  | className
  | catchClause
  | importBinding
  deriving DecidableEq, Repr, Inhabited

/-- Whether the name goes to the nearest variable scope, and not to the scope it
is declared in. -/
def DefinitionKind.hoists : DefinitionKind → Bool
  | declared .byVar => true
  | _ => false

/-- A place that declares a name. -/
structure Definition where
  /-- The declared name. -/
  name : Identifier
  /-- What declares it. -/
  kind : DefinitionKind
  deriving DecidableEq, Repr, Inhabited

/-- What a reference does to its variable. -/
inductive Access where
  | read
  | write
  | readWrite
  deriving DecidableEq, Repr, Inhabited

/-- Whether the variable gets a value. -/
def Access.isWrite : Access → Bool
  | read => false
  | write | readWrite => true

/-- A place that uses a name. -/
structure Reference where
  /-- The used name. -/
  identifier : Identifier
  /-- What the use does. -/
  access : Access
  /-- Whether it is the name of a declaration that gets its first value there;
  such a reference shares its node with a definition. -/
  init : Bool
  /-- The scope that the use stands in. -/
  origin : ScopeId
  /-- The scope whose binding it belongs to, once that is known. -/
  resolved : Option ScopeId
  deriving DecidableEq, Repr, Inhabited

/-- The used name. -/
def Reference.name (r : Reference) : String := r.identifier.name

/-- A name declared in a scope. -/
structure Binding where
  /-- The name. -/
  name : String
  /-- The places that declare it, in the order met. -/
  definitions : List Definition
  /-- The uses that belong to it, in the order met. -/
  references : List Reference
  deriving DecidableEq, Repr, Inhabited

/-- A scope. -/
structure Scope where
  /-- Its place in the list of all scopes. -/
  id : ScopeId
  /-- What opened it. -/
  kind : ScopeKind
  /-- The scope around it; none for the global scope. -/
  parent : Option ScopeId
  /-- The range of the node that opened it. -/
  span : Span
  /-- The names declared in it, in the order of their first declaration. -/
  bindings : List Binding
  /-- The scopes directly inside it, in the order opened. -/
  children : List ScopeId
  /-- The uses that it did not resolve, in the order met. -/
  through : List Reference
  deriving DecidableEq, Repr, Inhabited

namespace Scope

/-- A scope in which nothing has been met. -/
def empty (id : ScopeId) (kind : ScopeKind) (parent : Option ScopeId) (span : Span) : Scope :=
  { id, kind, parent, span, bindings := [], children := [], through := [] }

/-- The binding of a name. -/
def binding? (scope : Scope) (name : String) : Option Binding :=
  scope.bindings.find? (·.name == name)

/-- Adds a definition to the binding of its name among `bindings`, or a binding
for it at the end. -/
def addDefinition (d : Definition) : List Binding → List Binding
  | [] => [⟨d.name.name, [d], []⟩]
  | b :: rest =>
    if b.name = d.name.name then { b with definitions := b.definitions ++ [d] } :: rest
    else b :: addDefinition d rest

/-- Adds a reference to the binding of its name among `bindings`. -/
def addReference (r : Reference) : List Binding → List Binding
  | [] => []
  | b :: rest =>
    if b.name = r.name then { b with references := b.references ++ [r] } :: rest
    else b :: addReference r rest

/-- Declares a name. -/
def define (scope : Scope) (d : Definition) : Scope :=
  { scope with bindings := addDefinition d scope.bindings }

/-- Gives a use to the binding of its name, as resolved in this scope. -/
def resolve (scope : Scope) (r : Reference) : Scope :=
  { scope with bindings := addReference { r with resolved := some scope.id } scope.bindings }

/-- Records a use that this scope does not resolve. -/
def pass (scope : Scope) (r : Reference) : Scope :=
  { scope with through := scope.through ++ [r] }

/-- Records a scope directly inside this one. -/
def adopt (scope : Scope) (child : ScopeId) : Scope :=
  { scope with children := scope.children ++ [child] }

end Scope

end ScopeLint
