import ScopeLint.Syntax.Node

/-!
# Identifiers

What is kept of a node that names a definition or a reference: enough to report
a problem at it.
-/

namespace ScopeLint.Syntax

/-- A node that names a definition or a reference. -/
structure Identifier where
  /-- Which node of its tree it is. -/
  id : Nat
  /-- Its text. -/
  name : String
  /-- Its kind. -/
  kind : Kind
  /-- Its range. -/
  span : Span
  /-- Where it starts. -/
  start : Position
  deriving DecidableEq, Repr, Inhabited

/-- The identifier at a node of a tree over `source`. -/
def Identifier.ofLabel (source : Source) (label : Label) : Identifier :=
  { id := label.id
    name := String.ofList (source.textOf label.span)
    kind := label.kind
    span := label.span
    start := source.positionOf label.span.start label.start }

end ScopeLint.Syntax
