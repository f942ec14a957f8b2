import ScopeLint.Proofs.Outline.Forms
import ScopeLint.Proofs.Syntax.Labels

/-! # The shape of a syntax tree

What the grammar promises of the trees that a parser builds, as far as scoping
depends on it: which nodes are leaves, where the parts of patterns stand, and that
a construct whose parts are told apart by their fields has no other children.
`Shape` says it of one node with its children, `Node.Shaped` of every node of a
tree.  Nothing is assumed of names, ids or ranges.
-/

namespace ScopeLint.Syntax

namespace Kind

/-- The kind of the root of a tree. -/
def program : Kind := .other "program"

/-- The kind of a list of parameters. -/
def parameterList : Kind := .other "formal_parameters"

/-- The kind of what a switch statement switches over. -/
def switchBody : Kind := .other "switch_body"

/-- Whether nodes of a kind have no children. -/
def isLeaf : Kind → Bool
  | .identifier | .undefined | .shorthandPropertyIdentifier
  | .shorthandPropertyIdentifierPattern | .comment | .propertyIdentifier
  | .privatePropertyIdentifier | .statementIdentifier => true
  | _ => false

/-- Whether nodes of a kind stand in patterns and in lists of parameters only. -/
def isPatternPart : Kind → Bool
  | .restPattern | .pairPattern | .assignmentPattern | .objectAssignmentPattern
  | .shorthandPropertyIdentifierPattern => true
  | _ => false

/-- Whether nodes of a kind take parameters. -/
def isFunction : Kind → Bool
  | .functionDeclaration | .generatorFunctionDeclaration | .functionExpression | .function
  | .generatorFunction | .arrowFunction | .methodDefinition => true
  | _ => false

/-- Whether nodes of a kind are classes. -/
def isClass : Kind → Bool
  | .classDeclaration | .classExpression => true
  | _ => false

/-- Whether nodes of a kind are functions or classes that may have a name. -/
def takesName : Kind → Bool
  | .functionDeclaration | .generatorFunctionDeclaration | .functionExpression | .function
  | .generatorFunction | .classDeclaration | .classExpression => true
  | _ => false

/-- Whether nodes of a kind may have decorators. -/
def takesDecorators : Kind → Bool
  | .classDeclaration | .classExpression | .methodDefinition | .fieldDefinition
  | .exportStatement => true
  | _ => false

/-- The field of the key, in nodes of a kind that have a key. -/
def keyField? : Kind → Option Field
  | .methodDefinition => some .name
  | .fieldDefinition => some .property
  | .pair | .pairPattern => some .key
  | _ => none

/-- Whether the parts of nodes of a kind are told apart by their fields, or in
declarations and classes by their kinds. -/
def isReadByField : Kind → Bool
  | .variableDeclaration | .lexicalDeclaration | .variableDeclarator | .functionDeclaration
  | .generatorFunctionDeclaration | .functionExpression | .function | .generatorFunction
  | .arrowFunction | .methodDefinition | .classDeclaration | .classExpression
  | .fieldDefinition | .classStaticBlock | .forInStatement | .catchClause | .switchStatement
  | .withStatement | .assignmentExpression | .augmentedAssignmentExpression
  | .updateExpression | .pair | .pairPattern | .assignmentPattern
  | .objectAssignmentPattern => true
  | _ => false

end Kind

/-- The first of these nodes that stands in a field. -/
def Node.childInField? (field : Field) (nodes : List Node) : Option Node :=
  nodes.find? (·.label.isIn field)

/-- The field in which the parameters of a function are looked for. -/
def parametersField (children : List Node) : Field :=
  if (Node.inField? .parameters children).isSome then .parameters else .parameter

/-- The fields of the parts of a node. -/
def readFields (kind : Kind) (children : List Node) : List Field :=
  match kind with
  | .variableDeclarator => [.name, .value]
  | .functionDeclaration | .generatorFunctionDeclaration | .functionExpression | .function
  | .generatorFunction | .methodDefinition => [.name, parametersField children, .body]
  | .arrowFunction => [parametersField children, .body]
  | .classDeclaration | .classExpression => [.name]
  | .fieldDefinition => [.property, .value]
  | .classStaticBlock => [.body]
  | .forInStatement =>
    if headKeyword? children = some .byVar then [.left, .value, .right, .body]
    else [.left, .right, .body]
  | .catchClause => [.parameter, .body]
  | .switchStatement => [.value, .body]
  | .withStatement => [.object, .body]
  | .assignmentExpression | .augmentedAssignmentExpression | .assignmentPattern
  | .objectAssignmentPattern => [.left, .right]
  | .updateExpression => [.argument]
  | .pair | .pairPattern => [.key, .value]
  | _ => []

/-- The children that are parts of a node whose parts are told apart. -/
inductive PartOf (label : Label) (children : List Node) : Node → Prop
  | field {f : Field} {c : Node} (hf : f ∈ readFields label.kind children)
      (hc : Node.childInField? f children = some c) : PartOf label children c
  | declarator {c : Node}
      (h : label.kind = .variableDeclaration ∨ label.kind = .lexicalDeclaration)
      (hc : c.label.kind = .variableDeclarator) : PartOf label children c
  | ofClass {c : Node} (h : label.kind.isClass = true)
      (hc : c.label.kind = .classHeritage ∨ c.label.kind = .classBody) :
      PartOf label children c
  | looseStatement {c : Node} (h : label.kind = .classStaticBlock)
      (hbody : Node.kindInField? .body children ≠ some .statementBlock) :
      PartOf label children c

/-- The places where the parts of patterns stand. -/
inductive PatternPlace (label : Label) (children : List Node) : Node → Prop
  | listed {c : Node} (h : label.kind = .objectPattern ∨ label.kind = .arrayPattern ∨
      label.kind = .restPattern ∨ label.kind = .parameterList) : PatternPlace label children c
  | value {c : Node} (h : label.kind = .pairPattern)
      (hc : Node.childInField? .value children = some c) : PatternPlace label children c
  | defaulted {c : Node}
      (h : label.kind = .assignmentPattern ∨ label.kind = .objectAssignmentPattern)
      (hc : Node.childInField? .left children = some c) : PatternPlace label children c

/-- A tree without a node whose kind is that of a name. -/
def Node.Nameless (node : Node) : Prop := ∀ l ∈ node.labels, l.kind.isNameNode = false

/-- **What the grammar promises of a node and its children.** -/
structure Shape (label : Label) (children : List Node) : Prop where
  leaf : label.kind.isLeaf = true → children = []
  /-- A token is not a name. -/
  token : ∀ c ∈ children, c.label.named = false → c.Nameless
  patternPart : ∀ c ∈ children, c.label.kind.isPatternPart = true →
    PatternPlace label children c
  parameterList : ∀ c ∈ children, c.label.kind = .parameterList →
    label.kind.isFunction = true ∧ Node.childInField? .parameters children = some c
  parameters : label.kind.isFunction = true → ∀ c,
    Node.childInField? .parameters children = some c → c.label.kind = .parameterList
  switchBody : label.kind = .switchStatement → ∀ c,
    Node.childInField? .body children = some c → c.label.kind = .switchBody
  ownName : label.kind.takesName = true → ∀ c,
    Node.childInField? .name children = some c → c.label.kind.isName = true
  /-- A key is computed, or no name. -/
  key : ∀ f, label.kind.keyField? = some f → ∀ c, Node.childInField? f children = some c →
    c.label.kind = .computedPropertyName ∨ c.Nameless
  decorator : ∀ c ∈ children, c.label.kind = .decorator → label.kind.takesDecorators = true
  /-- What is read by field has no other parts. -/
  parts : label.kind.isReadByField = true → ∀ c ∈ children, c.label.named = true →
    c.label.kind ≠ .comment → c.label.kind ≠ .decorator → PartOf label children c

/-- **A tree in which every node has the shape that the grammar promises.** -/
inductive Node.Shaped : Node → Prop
  | node {label : Label} {children : List Node} (shape : Shape label children)
      (below : ∀ c ∈ children, c.Shaped) : Shaped (.node label children)

/-- A node without children has any shape. -/
theorem Shape.of_nil (label : Label) : Shape label [] where
  leaf := fun _ => rfl
  token := by simp
  patternPart := by simp
  parameterList := by simp
  parameters := by simp [Node.childInField?]
  switchBody := by simp [Node.childInField?]
  ownName := by simp [Node.childInField?]
  key := by simp [Node.childInField?]
  decorator := by simp
  parts := by simp

theorem Node.Shaped.of_nil (label : Label) : (Node.node label []).Shaped :=
  .node (.of_nil label) fun _ hc => absurd hc List.not_mem_nil

/-- Every node of such a tree has its shape. -/
theorem Node.Shaped.shape {root node : Node} (h : root.Shaped) (hnode : root.Holds node) :
    Shape node.label node.children := by
  induction hnode with
  | self =>
    cases h with
    | node shape _ => exact shape
  | child hc _ ih =>
    cases h with
    | node _ below => exact ih (below _ hc)

/-- Every node of such a tree is such a tree. -/
theorem Node.Shaped.down {root node : Node} (h : root.Shaped) (hnode : root.Holds node) :
    node.Shaped := by
  induction hnode with
  | self => exact h
  | child hc _ ih =>
    cases h with
    | node _ below => exact ih (below _ hc)

/-! ### The first child in a field -/

namespace Node

variable {f : Field} {nodes : List Node} {c : Node}

theorem mem_of_childInField? (h : childInField? f nodes = some c) : c ∈ nodes :=
  List.mem_of_find?_eq_some h

theorem inField?_eq (f : Field) (nodes : List Node) :
    inField? f nodes = (childInField? f nodes).map label := by
  rw [inField?, childInField?, List.find?_map]
  rfl

theorem inField?_of_child (h : childInField? f nodes = some c) :
    inField? f nodes = some c.label := by
  rw [inField?_eq, h]
  rfl

theorem kindInField?_of_child (h : childInField? f nodes = some c) :
    kindInField? f nodes = some c.label.kind := by
  rw [kindInField?, inField?_of_child h]
  rfl

theorem exists_child_of_inField? {l : Label} (h : inField? f nodes = some l) :
    ∃ c, childInField? f nodes = some c ∧ c.label = l := by
  rw [inField?_eq] at h
  exact Option.map_eq_some_iff.mp h

end Node

end ScopeLint.Syntax
