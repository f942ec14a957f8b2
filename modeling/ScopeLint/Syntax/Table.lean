import ScopeLint.Syntax.Node

/-!
# Syntax trees as tables

A parser hands over a tree as a flat list of rows in document order, a node
before those below it.  Each row names its parent by position, so the children
of a node are the rows that name it, in order.  `Table.tree?` puts the tree
together from the last row to the first: when a row's turn comes, all its
children have been collected.
-/

namespace ScopeLint.Syntax

/-- One node of a flat tree. -/
structure Row where
  /-- The name of the node's kind. -/
  kind : String
  /-- Its range in the parsed text. -/
  span : Span
  /-- The position of its parent; none for the root. -/
  parent : Option Nat
  /-- Whether the node is named. -/
  named : Bool
  /-- Whether the parser supplied the node. -/
  missing : Bool
  /-- Whether the node is or holds an error. -/
  hasError : Bool
  /-- The names of the parent's fields that it stands in. -/
  fields : List String
  deriving Repr, Inhabited

namespace Table

/-- The points of a text, by offset, from the point `p` on. -/
def pointsFrom (p : Point) : Source → List Point
  | [] => [p]
  | b :: rest => p :: pointsFrom (Source.advance p b) rest

/-- The label of a row, at position `id`, whose start is at the given point. -/
def labelOf (id : Nat) (start : Point) (row : Row) : Label :=
  { id, start, kind := .ofName row.kind, span := row.span, named := row.named,
    missing := row.missing, hasError := row.hasError, fields := row.fields.map .ofName }

/-- The children collected so far: for each row, and for the missing parent of
the roots. -/
structure Forest where
  /-- The children of the row at each position. -/
  below : Array (List Node)
  /-- The nodes without a parent. -/
  roots : List Node

/-- Turns one row into a node, whose children have been collected, and hands it
to its parent. -/
def place (points : Array Point) (entry : Row × Nat) (forest : Forest) : Forest :=
  let start := (points[entry.1.span.start]? <|> points.back?).getD ⟨0, 0⟩
  let node := Node.node (labelOf entry.2 start entry.1) (forest.below.getD entry.2 [])
  match entry.1.parent with
  | some parent => { forest with below := forest.below.modify parent (node :: ·) }
  | none => { forest with roots := node :: forest.roots }

/-- The tree of a table over a text; none when no row is a root. -/
def tree? (source : Source) (rows : List Row) : Option Node :=
  let points := (pointsFrom ⟨0, 0⟩ source).toArray
  let empty : Forest := ⟨Array.replicate rows.length [], []⟩
  (rows.zipIdx.foldr (place points) empty).roots.head?

end Table

end ScopeLint.Syntax
