import ScopeLint.Scope.Basic

/-!
# The outline of a program

An outline is what is left of a syntax tree when only scoping matters: the
places that declare names, the places that use them, and the scopes that these
lie in, in the order in which they are met.  `Node.outline` reads it off a tree.

What a node contributes depends on its **role**, the part it plays for its
parent.  A name is a use where code stands, a target on the left of an
assignment, and a declaration in a declarator or a parameter list; a property
name is nothing in any of them.  Patterns are met twice: `Pattern.names` lists
the names they bind or assign, and the role `Role.pattern` contributes the code
inside them (defaults, computed keys, member targets), which comes after all the
names.
-/

namespace ScopeLint

open Syntax

/-- One entry of an outline. -/
inductive Entry where
  /-- A node declares a name. -/
  | definition (name : Label) (kind : DefinitionKind)
  /-- A node uses a name. -/
  | reference (name : Label) (access : Access) (init : Bool)
  /-- A scope and what is met in it. -/
  | scope (kind : ScopeKind) (span : Span) (entries : List Entry)
  deriving Repr, Inhabited

/-- The part that a node plays for its parent. -/
inductive Role where
  /-- A statement or an expression. -/
  | code
  /-- A node whose named children are statements or expressions; it is nothing
  itself. -/
  | contents
  /-- The left side of an assignment. -/
  | target
  /-- What an operator such as `+=` or `++` changes. -/
  | updated
  /-- A pattern that declares names, and whether it gets a value as a whole. -/
  | binding (kind : DefinitionKind) (init : Bool)
  /-- A pattern, of which only the code inside counts. -/
  | pattern
  /-- A declarator of a declaration by a keyword. -/
  | declarator (keyword : Keyword)
  /-- The parameters of a function. -/
  | parameters
  /-- One parameter of a function. -/
  | parameter
  /-- A possible decorator. -/
  | decorator
  /-- A possible heritage clause or body of a class. -/
  | classPart
  /-- A child of a tag, unless it is the tag's name. -/
  | tagPart (name : Option Nat)
  deriving DecidableEq, Repr, Inhabited

/-! ## Names in patterns -/

namespace Pattern

mutual

/-- The nodes that a pattern binds or assigns, each with whether it lies under a
default value. -/
def names (underDefault : Bool) : Node → List (Label × Bool)
  | .node label children =>
    match label.kind with
    | .identifier | .undefined | .shorthandPropertyIdentifierPattern
    | .shorthandPropertyIdentifier => [(label, underDefault)]
    | .objectPattern | .arrayPattern | .object | .array | .restPattern | .spreadElement
    | .parenthesizedExpression => namesInNamed underDefault children
    | .pairPattern | .pair => namesInField underDefault .value children
    | .assignmentPattern | .objectAssignmentPattern | .assignmentExpression =>
      namesInField true .left children
    | _ => []

/-- The names of the named nodes of a list. -/
def namesInNamed (underDefault : Bool) : List Node → List (Label × Bool)
  | [] => []
  | child :: rest =>
    (if child.label.named then names underDefault child else []) ++ namesInNamed underDefault rest

/-- The names of the first node of a list that stands in a field. -/
def namesInField (underDefault : Bool) (field : Field) : List Node → List (Label × Bool)
  | [] => []
  | child :: rest =>
    if child.label.isIn field then names underDefault child
    else namesInField underDefault field rest

end

/-- The entries of a pattern's names when they are declared: a definition each,
and a use by which it gets its first value where it gets one. -/
def declarations (kind : DefinitionKind) (init : Bool) (names : List (Label × Bool)) :
    List Entry :=
  names.flatMap fun (name, underDefault) =>
    .definition name kind :: if init || underDefault then [.reference name .write true] else []

/-- The entries of a pattern's names when they are assigned. -/
def assignments (names : List (Label × Bool)) : List Entry :=
  names.map fun (name, _) => .reference name .write false

end Pattern

/-! ## Clauses without code -/

/-- The local names that an import specifier declares. -/
def importedBySpecifier : Node → List Label
  | .node label children =>
    if label.kind = .importSpecifier then
      ((Node.inField? .alias children <|> Node.inField? .name children).filter
        (·.kind.isName)).toList
    else []

/-- The local names that one part of an import clause declares. -/
def importedByPart : Node → List Label
  | .node label children =>
    match label.kind with
    | .identifier | .undefined => [label]
    | .namespaceImport => ((Node.namedLabels children).find? (·.kind.isName)).toList
    | .namedImports => (children.filter (·.label.named)).flatMap importedBySpecifier
    | _ => []

/-- The local names that an import declares, from the children of its node. -/
def importedNames (children : List Node) : List Label :=
  ((children.filter fun c => c.label.named && c.label.kind == .importClause).flatMap fun clause =>
    (clause.children.filter (·.label.named)).flatMap importedByPart)

/-- The local name that an export specifier uses. -/
def exportedBySpecifier : Node → List Label
  | .node label children =>
    if label.kind = .exportSpecifier then
      ((Node.inField? .name children).filter (·.kind.isName)).toList
    else []

/-- The local names that the clauses of an export use, from the children of its
node. -/
def exportedNames (children : List Node) : List Label :=
  ((children.filter fun c => c.label.named && c.label.kind == .exportClause).flatMap fun clause =>
    (clause.children.filter (·.label.named)).flatMap exportedBySpecifier)

/-! ## Plans -/

/-- One step of what a node contributes, in terms of its children. -/
inductive Part where
  /-- An entry of its own. -/
  | entry (entry : Entry)
  /-- Every named child, in a role. -/
  | named (role : Role)
  /-- Every named child after the first, in a role. -/
  | laterNamed (role : Role)
  /-- The first child that stands in a field, in a role. -/
  | field (field : Field) (role : Role)
  /-- A scope, and what is met in it. -/
  | scope (kind : ScopeKind) (span : Span) (parts : List Part)
  deriving Repr, Inhabited

namespace Part

/-- The definition of the name in a field, when there is one. -/
def definitionInField (kind : DefinitionKind) (field : Field) (children : List Node) :
    List Part :=
  ((Node.inField? field children).map fun name => .entry (.definition name kind)).toList

/-- A scope over the first child that stands in a field, when one does. -/
def scopeOverField (kind : ScopeKind) (field : Field) (role : Role) (children : List Node) :
    List Part :=
  ((Node.inField? field children).map fun child =>
    .scope kind child.span [.field field role]).toList

/-- The key in a field, which is code when it is computed and nothing otherwise. -/
def computedKey (place : Field) (children : List Node) : List Part :=
  if Node.kindInField? place children = some .computedPropertyName then [.field place .code]
  else []

/-- The body of a construct, which shares the construct's scope when it is a
block. -/
def sharedBody (children : List Node) : Part :=
  if Node.kindInField? .body children = some .statementBlock then .field .body .contents
  else .field .body .code

/-- The scope of a function, with its parameters and its body. -/
def function (span : Span) (children : List Node) : Part :=
  let parameters : Part :=
    if (Node.inField? .parameters children).isSome then .field .parameters .parameters
    else .field .parameter (.binding .parameter false)
  .scope .function span [parameters, sharedBody children]

/-- The scope of a class, with what is declared in it at once. -/
def classScope (span : Span) (own : List Part) : List Part :=
  [.named .decorator, .scope .classBody span (own ++ [.named .classPart])]

/-- The names that a pattern with these parts assigns, and the code inside it. -/
def assignedPattern (children : List Node) : List Part :=
  (Pattern.assignments (Pattern.namesInNamed false children)).map .entry ++ [.named .pattern]

end Part

/-- The keyword that a `let` or `const` declaration is made by. -/
def lexicalKeyword (children : List Node) : Keyword :=
  if Node.kindInField? .kind children = some .constKeyword then .byConst else .byLet

/-- The keyword in the head of a loop over the items of a value. -/
def headKeyword? (children : List Node) : Option Keyword :=
  match Node.kindInField? .kind children with
  | some .varKeyword => some .byVar
  | some .letKeyword => some .byLet
  | some .constKeyword => some .byConst
  | _ => none

/-- Whether a child declares by `let` or `const`. -/
def hasLexicalHead (children : List Node) : Bool :=
  (Node.namedLabels children).any (·.kind == .lexicalDeclaration)

/-- What a statement or an expression contributes. -/
def codePlan (label : Label) (children : List Node) : List Part :=
  match label.kind with
  | .identifier | .undefined | .shorthandPropertyIdentifier =>
    [.entry (.reference label .read false)]
  | .propertyIdentifier | .privatePropertyIdentifier | .statementIdentifier | .metaProperty
  | .comment | .jsxClosingElement => []
  | .variableDeclaration => [.named (.declarator .byVar)]
  | .lexicalDeclaration => [.named (.declarator (lexicalKeyword children))]
  | .functionDeclaration | .generatorFunctionDeclaration =>
    Part.definitionInField .functionName .name children ++ [Part.function label.span children]
  | .functionExpression | .function | .generatorFunction =>
    match Node.inField? .name children with
    | some name =>
      [.scope .functionExpressionName label.span
        [.entry (.definition name .functionName), Part.function label.span children]]
    | none => [Part.function label.span children]
  | .arrowFunction => [Part.function label.span children]
  | .methodDefinition =>
    [.named .decorator] ++ Part.computedKey .name children ++ [Part.function label.span children]
  | .classDeclaration =>
    Part.definitionInField .className .name children ++ Part.classScope label.span []
  | .classExpression =>
    Part.classScope label.span (Part.definitionInField .className .name children)
  | .fieldDefinition =>
    [.named .decorator] ++ Part.computedKey .property children ++
      Part.scopeOverField .classFieldInitializer .value .code children
  | .classStaticBlock =>
    let body : Part :=
      if Node.kindInField? .body children = some .statementBlock then .field .body .contents
      else .named .code
    [.scope .classStaticBlock label.span [body]]
  | .statementBlock => [.scope .block label.span [.named .code]]
  | .forStatement =>
    if hasLexicalHead children then [.scope .forLoop label.span [.named .code]]
    else [.named .code]
  | .forInStatement =>
    match headKeyword? children with
    | some .byVar =>
      [.field .left (.binding (.declared .byVar) true), .field .value .code,
        .field .right .code, .field .body .code]
    | some keyword =>
      [.scope .forLoop label.span
        [.field .left (.binding (.declared keyword) true), .field .right .code,
          .field .body .code]]
    | none => [.field .left .target, .field .right .code, .field .body .code]
  | .catchClause =>
    [.scope .catchClause label.span
      [.field .parameter (.binding .catchClause false), .field .body .code]]
  | .switchStatement =>
    [.field .value .code] ++ Part.scopeOverField .switchBody .body .contents children
  | .withStatement =>
    [.field .object .code] ++ Part.scopeOverField .withBody .body .code children
  | .assignmentExpression => [.field .left .target, .field .right .code]
  | .augmentedAssignmentExpression => [.field .left .updated, .field .right .code]
  | .updateExpression => [.field .argument .updated]
  | .objectPattern | .arrayPattern => Part.assignedPattern children
  | .importStatement =>
    (importedNames children).map fun name => .entry (.definition name .importBinding)
  | .exportStatement =>
    let exported : List Label :=
      if (Node.inField? .source children).isSome then [] else exportedNames children
    [.named .decorator, .field .declaration .code, .field .value .code] ++
      exported.map fun name => .entry (.reference name .read false)
  | .jsxOpeningElement | .jsxSelfClosingElement =>
    [.named (.tagPart ((Node.inField? .name children).map (·.id)))]
  | .jsxAttribute => [.laterNamed .code]
  | _ => [.named .code]

/-- What the code inside a pattern contributes. -/
def patternPlan (label : Label) (children : List Node) : List Part :=
  match label.kind with
  | .identifier | .undefined | .shorthandPropertyIdentifierPattern
  | .shorthandPropertyIdentifier | .comment => []
  | .objectPattern | .arrayPattern | .object | .array | .restPattern | .spreadElement
  | .parenthesizedExpression => [.named .pattern]
  | .pairPattern | .pair => Part.computedKey .key children ++ [.field .value .pattern]
  | .assignmentPattern | .objectAssignmentPattern | .assignmentExpression =>
    [.field .left .pattern, .field .right .code]
  | _ => codePlan label children

/-- What a pattern that declares names contributes. -/
def bindingPlan (kind : DefinitionKind) (init : Bool) (label : Label) (children : List Node) :
    List Part :=
  (Pattern.declarations kind init (Pattern.names false (.node label children))).map .entry ++
    patternPlan label children

/-- What a node contributes in a role. -/
def plan (role : Role) (label : Label) (children : List Node) : List Part :=
  match role with
  | .code => codePlan label children
  | .contents => [.named .code]
  | .parameters => [.named .parameter]
  | .target =>
    match label.kind with
    | .identifier | .undefined => [.entry (.reference label .write false)]
    | .parenthesizedExpression => [.named .target]
    | .objectPattern | .arrayPattern | .object | .array => Part.assignedPattern children
    | _ => codePlan label children
  | .updated =>
    match label.kind with
    | .identifier | .undefined => [.entry (.reference label .readWrite false)]
    | .parenthesizedExpression => [.named .updated]
    | _ => codePlan label children
  | .binding kind init => bindingPlan kind init label children
  | .pattern => patternPlan label children
  | .declarator keyword =>
    if label.kind = .variableDeclarator then
      let init := (Node.inField? .value children).isSome
      [.field .name (.binding (.declared keyword) init), .field .value .code]
    else []
  | .parameter =>
    if label.kind = .comment then [] else bindingPlan .parameter false label children
  | .decorator => if label.kind = .decorator then [.named .code] else []
  | .classPart =>
    if label.kind = .classHeritage ∨ label.kind = .classBody then [.named .code] else []
  | .tagPart name => if some label.id = name then [] else codePlan label children

/-! ## The outline -/

/-- What the children of a node contribute, by the parts of a plan. -/
structure Below where
  /-- Every named child, in a role. -/
  named : Role → List Entry
  /-- Every named child after the first, in a role. -/
  laterNamed : Role → List Entry
  /-- The first child in a field, in a role. -/
  field : Field → Role → List Entry

mutual

/-- The entries of one part. -/
def Part.entries (below : Below) : Part → List Entry
  | .entry e => [e]
  | .named role => below.named role
  | .laterNamed role => below.laterNamed role
  | .field f role => below.field f role
  | .scope kind span parts => [.scope kind span (Part.entriesAll below parts)]

/-- The entries of parts in order. -/
def Part.entriesAll (below : Below) : List Part → List Entry
  | [] => []
  | part :: rest => part.entries below ++ Part.entriesAll below rest

end

mutual

/-- **The outline of a node in a role.** -/
def Syntax.Node.outline (role : Role) : Node → List Entry
  | .node label children =>
    Part.entriesAll
      { named := fun r => outlineNamed r children
        laterNamed := fun r => outlineLater r children
        field := fun f r => outlineField f r children }
      (plan role label children)

/-- The outline of the named nodes of a list. -/
def outlineNamed (role : Role) : List Node → List Entry
  | [] => []
  | child :: rest =>
    (if child.label.named then child.outline role else []) ++ outlineNamed role rest

/-- The outline of the named nodes of a list after the first. -/
def outlineLater (role : Role) : List Node → List Entry
  | [] => []
  | child :: rest =>
    if child.label.named then outlineNamed role rest else outlineLater role rest

/-- The outline of the first node of a list that stands in a field. -/
def outlineField (field : Field) (role : Role) : List Node → List Entry
  | [] => []
  | child :: rest =>
    if child.label.isIn field then child.outline role else outlineField field role rest

end

end ScopeLint
