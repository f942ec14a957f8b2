import ScopeLint.Text.Source
import ScopeLint.Syntax.Kind

/-!
# Syntax trees

A tree is a node with a label and its children in document order.  Nothing is
assumed of it: kinds, fields and ranges may be any.  What a parser promises is
stated where it is used.
-/

namespace ScopeLint.Syntax

/-- What a node says of itself. -/
structure Label where
  /-- Which node of its tree it is. -/
  id : Nat
  /-- Its kind. -/
  kind : Kind
  /-- Its range in the parsed text. -/
  span : Span
  /-- Where it starts in the parsed text. -/
  start : Point
  /-- Whether it is a named node, and not a token that the grammar spells out. -/
  named : Bool
  /-- Whether the parser supplied it where the text has none. -/
  missing : Bool
  /-- Whether the parser marked it as being or holding an error. -/
  hasError : Bool
  /-- The fields of its parent that it stands in. -/
  fields : List Field
  deriving DecidableEq, Repr, Inhabited

/-- Whether a node stands in a field of its parent. -/
def Label.isIn (label : Label) (field : Field) : Bool := label.fields.contains field

/-- A named node on the first line of a text, where columns are offsets. -/
def Label.onFirstLine (id : Nat) (kind : Kind) (start stop : Nat) (fields : List Field) : Label :=
  { id, kind, span := ⟨start, stop⟩, start := ⟨0, start⟩, named := true, missing := false,
    hasError := false, fields }

/-- A syntax tree. -/
inductive Node where
  /-- A node and its children. -/
  | node (label : Label) (children : List Node)
  deriving Repr, Inhabited

namespace Node

/-- The label of the root. -/
def label : Node → Label
  | node l _ => l

/-- The children of the root. -/
def children : Node → List Node
  | node _ cs => cs

/-- The label of the first of these nodes that stands in a field. -/
def inField? (field : Field) (nodes : List Node) : Option Label :=
  (nodes.map label).find? (·.isIn field)

/-- The kind of the first of these nodes that stands in a field. -/
def kindInField? (field : Field) (nodes : List Node) : Option Kind :=
  (inField? field nodes).map (·.kind)

/-- The labels of the named nodes among these. -/
def namedLabels (nodes : List Node) : List Label :=
  (nodes.map label).filter (·.named)

/-- Whether a node is, or was supplied for, something the parser could not place. -/
def isBad (label : Label) : Bool := label.kind == .error || label.missing

mutual

/-- The labels of a tree, each before those below it. -/
def labels : Node → List Label
  | node label children => label :: labelsAll children

/-- The labels of the trees of a list, in order. -/
def labelsAll : List Node → List Label
  | [] => []
  | child :: rest => child.labels ++ labelsAll rest

end

end Node

end ScopeLint.Syntax
