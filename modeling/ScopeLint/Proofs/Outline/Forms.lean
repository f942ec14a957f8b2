import ScopeLint.Scope.Outline

/-! # The forms of plans

What a node contributes is decided by its kind.  `CodeForm` lists, construct by
construct, the plans that a statement or an expression can have, and
`PatternForm` those of the code inside a pattern; `codePlan_form` and
`patternPlan_form` say that these are all.  Facts about plans are proved by going
through the forms.
-/

namespace ScopeLint

open Syntax

/-- Whether nodes of a kind contribute nothing as code. -/
def Syntax.Kind.isSilent : Kind → Bool
  | .propertyIdentifier | .privatePropertyIdentifier | .statementIdentifier | .metaProperty
  | .comment | .jsxClosingElement => true
  | _ => false

/-- Whether nodes of a kind are function expressions, which may have a name. -/
def Syntax.Kind.isFunctionExpression : Kind → Bool
  | .functionExpression | .function | .generatorFunction => true
  | _ => false

/-- Whether nodes of a kind are lists of patterns, when they stand in a pattern. -/
def Syntax.Kind.isPatternList : Kind → Bool
  | .objectPattern | .arrayPattern | .object | .array | .restPattern | .spreadElement
  | .parenthesizedExpression => true
  | _ => false

/-- Whether nodes of a kind are names, wherever they stand. -/
def Syntax.Kind.isNameNode : Kind → Bool
  | .identifier | .undefined | .shorthandPropertyIdentifier
  | .shorthandPropertyIdentifierPattern => true
  | _ => false

/-- Whether nodes of a kind give a default to a pattern, when they stand in one. -/
def Syntax.Kind.isDefault : Kind → Bool
  | .assignmentPattern | .objectAssignmentPattern | .assignmentExpression => true
  | _ => false

/-- Whether nodes of a kind contribute as code just what their named children
contribute. -/
def Syntax.Kind.isOrdinary : Kind → Bool
  | .identifier | .undefined | .shorthandPropertyIdentifier | .propertyIdentifier
  | .privatePropertyIdentifier | .statementIdentifier | .metaProperty | .comment
  | .jsxClosingElement | .variableDeclaration | .lexicalDeclaration | .functionDeclaration
  | .generatorFunctionDeclaration | .functionExpression | .function | .generatorFunction
  | .arrowFunction | .methodDefinition | .classDeclaration | .classExpression | .fieldDefinition
  | .classStaticBlock | .forInStatement | .catchClause | .switchStatement | .withStatement
  | .assignmentExpression | .augmentedAssignmentExpression | .updateExpression | .objectPattern
  | .arrayPattern | .importStatement | .exportStatement | .jsxOpeningElement
  | .jsxSelfClosingElement | .jsxAttribute => false
  | _ => true

/-- The keyword of a declaration, in nodes that are one. -/
def Syntax.Node.declarationKeyword? : Node → Option Keyword
  | .node label children =>
    match label.kind with
    | .variableDeclaration => some .byVar
    | .lexicalDeclaration => some (lexicalKeyword children)
    | _ => none

/-- **The plans of statements and expressions.** -/
inductive CodeForm (label : Label) (children : List Node) : List Part → Prop
  | name (h : label.kind = .identifier ∨ label.kind = .undefined ∨
      label.kind = .shorthandPropertyIdentifier) :
      CodeForm label children [.entry (.reference label .read false)]
  | silent (h : label.kind.isSilent = true) : CodeForm label children []
  | declaration (h : label.kind = .variableDeclaration ∨ label.kind = .lexicalDeclaration)
      (keyword : Keyword)
      (hkeyword : (Node.node label children).declarationKeyword? = some keyword) :
      CodeForm label children [.named (.declarator keyword)]
  | functionDeclaration (h : label.kind = .functionDeclaration ∨
      label.kind = .generatorFunctionDeclaration) :
      CodeForm label children
        (Part.definitionInField .functionName .name children ++
          [Part.function label.span children])
  | namedFunction (h : label.kind.isFunctionExpression = true) (name : Label)
      (hname : Node.inField? .name children = some name) :
      CodeForm label children
        [.scope .functionExpressionName label.span
          [.entry (.definition name .functionName), Part.function label.span children]]
  | function (h : label.kind = .arrowFunction ∨
      label.kind.isFunctionExpression = true ∧ Node.inField? .name children = none) :
      CodeForm label children [Part.function label.span children]
  | method (h : label.kind = .methodDefinition) :
      CodeForm label children
        ([.named .decorator] ++ Part.computedKey .name children ++
          [Part.function label.span children])
  | classDeclaration (h : label.kind = .classDeclaration) :
      CodeForm label children
        (Part.definitionInField .className .name children ++ Part.classScope label.span [])
  | classExpression (h : label.kind = .classExpression) :
      CodeForm label children
        (Part.classScope label.span (Part.definitionInField .className .name children))
  | classField (h : label.kind = .fieldDefinition) :
      CodeForm label children
        ([.named .decorator] ++ Part.computedKey .property children ++
          Part.scopeOverField .classFieldInitializer .value .code children)
  | staticBlock (h : label.kind = .classStaticBlock)
      (hbody : Node.kindInField? .body children = some .statementBlock) :
      CodeForm label children [.scope .classStaticBlock label.span [.field .body .contents]]
  | looseStaticBlock (h : label.kind = .classStaticBlock) :
      CodeForm label children [.scope .classStaticBlock label.span [.named .code]]
  | enclosed (h : label.kind.isOrdinary = true) (kind : ScopeKind)
      (hkind : kind = .block ∨ kind = .forLoop) :
      CodeForm label children [.scope kind label.span [.named .code]]
  | forVar (h : label.kind = .forInStatement) (hhead : headKeyword? children = some .byVar) :
      CodeForm label children
        [.field .left (.binding (.declared .byVar) true), .field .value .code,
          .field .right .code, .field .body .code]
  | forLexical (h : label.kind = .forInStatement) (keyword : Keyword)
      (hhead : headKeyword? children ≠ some .byVar)
      (hkeyword : headKeyword? children = some keyword) :
      CodeForm label children
        [.scope .forLoop label.span
          [.field .left (.binding (.declared keyword) true), .field .right .code,
            .field .body .code]]
  | forTarget (h : label.kind = .forInStatement)
      (hhead : headKeyword? children ≠ some .byVar) :
      CodeForm label children [.field .left .target, .field .right .code, .field .body .code]
  | catchClause (h : label.kind = .catchClause) :
      CodeForm label children
        [.scope .catchClause label.span
          [.field .parameter (.binding .catchClause false), .field .body .code]]
  | switchStatement (h : label.kind = .switchStatement) :
      CodeForm label children
        ([.field .value .code] ++ Part.scopeOverField .switchBody .body .contents children)
  | withStatement (h : label.kind = .withStatement) :
      CodeForm label children
        ([.field .object .code] ++ Part.scopeOverField .withBody .body .code children)
  | assignment (h : label.kind = .assignmentExpression) :
      CodeForm label children [.field .left .target, .field .right .code]
  | augmented (h : label.kind = .augmentedAssignmentExpression) :
      CodeForm label children [.field .left .updated, .field .right .code]
  | update (h : label.kind = .updateExpression) :
      CodeForm label children [.field .argument .updated]
  | assignedPattern (h : label.kind = .objectPattern ∨ label.kind = .arrayPattern) :
      CodeForm label children (Part.assignedPattern children)
  | importStatement (h : label.kind = .importStatement) :
      CodeForm label children
        ((importedNames children).map fun name => .entry (.definition name .importBinding))
  | reexport (h : label.kind = .exportStatement)
      (hsource : (Node.inField? .source children).isSome = true) :
      CodeForm label children
        [.named .decorator, .field .declaration .code, .field .value .code]
  | exportStatement (h : label.kind = .exportStatement)
      (hsource : (Node.inField? .source children).isSome = false) :
      CodeForm label children
        ([.named .decorator, .field .declaration .code, .field .value .code] ++
          (exportedNames children).map fun name => .entry (.reference name .read false))
  | tag (h : label.kind = .jsxOpeningElement ∨ label.kind = .jsxSelfClosingElement) :
      CodeForm label children
        [.named (.tagPart ((Node.inField? .name children).map (·.id)))]
  | tagAttribute (h : label.kind = .jsxAttribute) : CodeForm label children [.laterNamed .code]
  | ordinary (h : label.kind.isOrdinary = true) : CodeForm label children [.named .code]

/-- **Every plan of code has one of the forms.** -/
theorem codePlan_form (label : Label) (children : List Node) :
    CodeForm label children (codePlan label children) := by
  -- The cases stand in the order of the kinds in `codePlan`.
  unfold codePlan
  split
  case h_1 h => exact .name (Or.inl h)
  case h_2 h => exact .name (Or.inr (Or.inl h))
  case h_3 h => exact .name (Or.inr (Or.inr h))
  case h_4 h | h_5 h | h_6 h | h_7 h | h_8 h | h_9 h => exact .silent (by rw [h]; rfl)
  case h_10 h => exact .declaration (Or.inl h) _ (by rw [Node.declarationKeyword?, h])
  case h_11 h => exact .declaration (Or.inr h) _ (by rw [Node.declarationKeyword?, h])
  case h_12 h => exact .functionDeclaration (Or.inl h)
  case h_13 h => exact .functionDeclaration (Or.inr h)
  case h_14 h | h_15 h | h_16 h =>
    have hkind : label.kind.isFunctionExpression = true := by rw [h]; rfl
    cases hname : Node.inField? .name children with
    | some name => exact .namedFunction hkind name hname
    | none => exact .function (Or.inr ⟨hkind, hname⟩)
  case h_17 h => exact .function (Or.inl h)
  case h_18 h => exact .method h
  case h_19 h => exact .classDeclaration h
  case h_20 h => exact .classExpression h
  case h_21 h => exact .classField h
  case h_22 h =>
    split
    · exact .staticBlock h ‹_›
    · exact .looseStaticBlock h
  case h_23 h => exact .enclosed (by rw [h]; rfl) .block (Or.inl rfl)
  case h_24 h =>
    have hkind : label.kind.isOrdinary = true := by rw [h]; rfl
    split
    · exact .enclosed hkind .forLoop (Or.inr rfl)
    · exact .ordinary hkind
  case h_25 h =>
    split
    case h_1 hhead => exact .forVar h hhead
    case h_2 keyword hnot hhead =>
      exact .forLexical h keyword (fun hvar => hnot (Option.some.inj (hhead.symm.trans hvar)))
        hhead
    case h_3 hhead => exact .forTarget h (by simp [hhead])
  case h_26 h => exact .catchClause h
  case h_27 h => exact .switchStatement h
  case h_28 h => exact .withStatement h
  case h_29 h => exact .assignment h
  case h_30 h => exact .augmented h
  case h_31 h => exact .update h
  case h_32 h => exact .assignedPattern (Or.inl h)
  case h_33 h => exact .assignedPattern (Or.inr h)
  case h_34 h => exact .importStatement h
  case h_35 h =>
    cases hsource : (Node.inField? .source children).isSome with
    | true => exact .reexport h hsource
    | false => exact .exportStatement h hsource
  case h_36 h => exact .tag (Or.inl h)
  case h_37 h => exact .tag (Or.inr h)
  case h_38 h => exact .tagAttribute h
  case h_39 =>
    refine .ordinary ?_
    cases hkind : label.kind <;> first | rfl | contradiction

/-- **The plans of the code inside a pattern.** -/
inductive PatternForm (label : Label) (children : List Node) : List Part → Prop
  | name (h : label.kind.isNameNode = true) : PatternForm label children []
  | comment (h : label.kind = .comment) : PatternForm label children []
  | list (h : label.kind.isPatternList = true) : PatternForm label children [.named .pattern]
  | pair (h : label.kind = .pairPattern ∨ label.kind = .pair) :
      PatternForm label children
        (Part.computedKey .key children ++ [.field .value .pattern])
  | default (h : label.kind.isDefault = true) :
      PatternForm label children [.field .left .pattern, .field .right .code]
  | code (hname : label.kind.isNameNode = false) (hlist : label.kind.isPatternList = false)
      (hpair : label.kind ≠ .pairPattern ∧ label.kind ≠ .pair)
      (hdefault : label.kind.isDefault = false) (hcomment : label.kind ≠ .comment) :
      PatternForm label children (codePlan label children)

/-- **Every plan of the code inside a pattern has one of the forms.** -/
theorem patternPlan_form (label : Label) (children : List Node) :
    PatternForm label children (patternPlan label children) := by
  unfold patternPlan
  split
  case h_1 h | h_2 h | h_3 h | h_4 h => exact .name (by rw [h]; rfl)
  case h_5 h => exact .comment h
  case h_6 h | h_7 h | h_8 h | h_9 h | h_10 h | h_11 h | h_12 h => exact .list (by rw [h]; rfl)
  case h_13 h => exact .pair (Or.inl h)
  case h_14 h => exact .pair (Or.inr h)
  case h_15 h | h_16 h | h_17 h => exact .default (by rw [h]; rfl)
  case h_18 =>
    cases hkind : label.kind <;>
      first
      | contradiction
      | exact .code (by rw [hkind]; rfl) (by rw [hkind]; rfl) (by simp [hkind])
          (by rw [hkind]; rfl) (by simp [hkind])

/-! ### The names of a pattern -/

namespace Pattern

variable {label : Label} {children : List Node} (u : Bool)

theorem names_of_name (h : label.kind.isNameNode = true) :
    names u (.node label children) = [(label, u)] := by
  rw [names]
  cases hkind : label.kind <;> first | rfl | (rw [hkind] at h; cases h)

theorem names_of_list (h : label.kind.isPatternList = true) :
    names u (.node label children) = namesInNamed u children := by
  rw [names]
  cases hkind : label.kind <;> first | rfl | (rw [hkind] at h; cases h)

theorem names_of_pair (h : label.kind = .pairPattern ∨ label.kind = .pair) :
    names u (.node label children) = namesInField u .value children := by
  rw [names]
  rcases h with h | h <;> rw [h]

theorem names_of_default (h : label.kind.isDefault = true) :
    names u (.node label children) = namesInField true .left children := by
  rw [names]
  cases hkind : label.kind <;> first | rfl | (rw [hkind] at h; cases h)

/-- Other nodes are no patterns, and bind nothing. -/
theorem names_of_other (hname : label.kind.isNameNode = false)
    (hlist : label.kind.isPatternList = false)
    (hpair : label.kind ≠ .pairPattern ∧ label.kind ≠ .pair)
    (hdefault : label.kind.isDefault = false) : names u (.node label children) = [] := by
  rw [names]
  cases hkind : label.kind <;> first | rfl | (simp [hkind, Kind.isNameNode, Kind.isPatternList,
    Kind.isDefault] at hname hlist hpair hdefault)

end Pattern

/-- **The plans of the left side of an assignment.** -/
inductive TargetForm (label : Label) (children : List Node) : List Part → Prop
  | name (h : label.kind = .identifier ∨ label.kind = .undefined) :
      TargetForm label children [.entry (.reference label .write false)]
  | parenthesized (h : label.kind = .parenthesizedExpression) :
      TargetForm label children [.named .target]
  | pattern (h : label.kind = .objectPattern ∨ label.kind = .arrayPattern ∨
      label.kind = .object ∨ label.kind = .array) :
      TargetForm label children (Part.assignedPattern children)
  | code (hname : label.kind ≠ .identifier ∧ label.kind ≠ .undefined) :
      TargetForm label children (codePlan label children)

/-- **Every plan of a left side has one of the forms.** -/
theorem targetPlan_form (label : Label) (children : List Node) :
    TargetForm label children (plan .target label children) := by
  rw [plan]
  split
  case h_1 h => exact .name (Or.inl h)
  case h_2 h => exact .name (Or.inr h)
  case h_3 h => exact .parenthesized h
  case h_4 h => exact .pattern (Or.inl h)
  case h_5 h => exact .pattern (Or.inr (Or.inl h))
  case h_6 h => exact .pattern (Or.inr (Or.inr (Or.inl h)))
  case h_7 h => exact .pattern (Or.inr (Or.inr (Or.inr h)))
  case h_8 => exact .code ⟨‹_›, ‹_›⟩

/-- **The plans of what an operator changes.** -/
inductive UpdatedForm (label : Label) (children : List Node) : List Part → Prop
  | name (h : label.kind = .identifier ∨ label.kind = .undefined) :
      UpdatedForm label children [.entry (.reference label .readWrite false)]
  | parenthesized (h : label.kind = .parenthesizedExpression) :
      UpdatedForm label children [.named .updated]
  | code (hname : label.kind ≠ .identifier ∧ label.kind ≠ .undefined) :
      UpdatedForm label children (codePlan label children)

/-- **Every plan of what an operator changes has one of the forms.** -/
theorem updatedPlan_form (label : Label) (children : List Node) :
    UpdatedForm label children (plan .updated label children) := by
  rw [plan]
  split
  case h_1 h => exact .name (Or.inl h)
  case h_2 h => exact .name (Or.inr h)
  case h_3 h => exact .parenthesized h
  case h_4 => exact .code ⟨‹_›, ‹_›⟩

end ScopeLint
