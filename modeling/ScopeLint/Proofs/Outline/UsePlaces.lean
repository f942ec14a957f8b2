import ScopeLint.Proofs.Outline.Uses

/-! # Where the uses below a node are

In a tree of the promised shape, a child with a use below it is one that its node is
read by.  In nodes whose parts are told apart by their fields this is a part
(`Shape.part_of_use`), and never a token or a comment.
-/

namespace ScopeLint

open Syntax

namespace Syntax.Kind

/-- Whether nodes of a kind may have parts of patterns as children. -/
def holdsPatterns : Kind → Bool
  | .objectPattern | .arrayPattern | .restPattern | .pairPattern | .assignmentPattern
  | .objectAssignmentPattern => true
  | kind => kind == .parameterList

/-- Whether nodes of a kind have parts that are told apart by their kinds. -/
def hasPartsByKind : Kind → Bool
  | .variableDeclaration | .lexicalDeclaration | .classDeclaration | .classExpression
  | .classStaticBlock => true
  | _ => false

/-- Whether nodes of a kind have code in fields, and nothing else. -/
def hasCodeFields : Kind → Bool
  | .variableDeclarator | .forInStatement | .catchClause | .switchStatement | .withStatement
  | .assignmentExpression | .augmentedAssignmentExpression | .updateExpression | .pair => true
  | _ => false

theorem hasPartsByKind_of_isClass {kind : Kind} (h : kind.isClass = true) :
    kind.hasPartsByKind = true := by
  cases kind <;> first | rfl | cases h

/-- Nodes that stand outside patterns and lists of parameters. -/
structure IsCode (kind : Kind) : Prop where
  patternPart : kind.isPatternPart = false
  parameterList : kind ≠ .parameterList

/-- Nodes that are no names and hold neither labels nor patterns nor parameters. -/
structure IsOpen (kind : Kind) : Prop where
  name : kind.isNameNode = false
  labels : kind.holdsLabels = false
  patterns : kind.holdsPatterns = false
  function : kind.isFunction = false

theorem IsCode.isOpen {kind : Kind} (hcode : kind.IsCode) (h : kind.isOrdinary = true) :
    kind.IsOpen := by
  obtain ⟨hpattern, hlist⟩ := hcode
  cases kind <;>
    first
    | exact ⟨rfl, rfl, rfl, rfl⟩
    | exact ⟨rfl, rfl, beq_eq_false_iff_ne.mpr hlist, rfl⟩
    | exact absurd h (by decide)
    | exact absurd hpattern (by decide)

theorem default_cases {kind : Kind} (h : kind.isDefault = true) (children : List Node) :
    kind.isReadByField = true ∧ kind.takesDecorators = false ∧ kind.hasPartsByKind = false ∧
      kind.isFunction = false ∧ readFields kind children = [.left, .right] := by
  cases kind <;> first | exact ⟨rfl, rfl, rfl, rfl, rfl⟩ | cases h

theorem isPatternPart_of_other {kind : Kind} (hname : kind.isNameNode = false)
    (hlist : kind.isPatternList = false) (hpair : kind ≠ .pairPattern)
    (hdefault : kind.isDefault = false) : kind.isPatternPart = false := by
  cases kind <;>
    first
    | rfl
    | exact absurd rfl hpair
    | exact absurd hname (by decide)
    | exact absurd hlist (by decide)
    | exact absurd hdefault (by decide)

theorem isSilent_cases {kind : Kind} (h : kind.isSilent = true) :
    kind.isLeaf = true ∧ kind.isNameNode = false ∨
      kind = .metaProperty ∨ kind = .jsxClosingElement := by
  cases kind <;>
    first
    | exact Or.inl ⟨rfl, rfl⟩
    | exact Or.inr (Or.inl rfl)
    | exact Or.inr (Or.inr rfl)
    | cases h

end Syntax.Kind

/-! ### Uses below a node -/

theorem Syntax.Node.Nameless.no_use {node : Node} (h : node.Nameless) {l : Label} :
    ¬ Use node l := by
  intro huse
  obtain ⟨hmem, hname⟩ := huse.mem_labels
  rw [h l hmem] at hname
  cases hname

theorem Use.of_leaf {node : Node} (hshaped : node.Shaped) {l : Label}
    (hleaf : node.label.kind.isLeaf = true) (huse : Use node l) : l = node.label := by
  cases hshaped with
  | @node label children hshape _ =>
    have hnil := hshape.leaf hleaf
    have hkind : label.kind.isLeaf = true := hleaf
    cases huse with
    | name => rfl
    | within hc =>
      rw [hnil] at hc
      exact absurd hc.mem List.not_mem_nil
    | imported h | exported h =>
      rw [h] at hkind
      cases hkind

section Uses

variable {label : Label} {children : List Node} {l : Label}

theorem Syntax.PartOf.exists_field {c : Node} (h : PartOf label children c)
    (hkind : label.kind.hasPartsByKind = false) :
    ∃ f ∈ readFields label.kind children, Node.childInField? f children = some c := by
  cases h with
  | field hf hc => exact ⟨_, hf, hc⟩
  | declarator h =>
    rcases h with h | h <;> rw [h] at hkind <;> cases hkind
  | ofClass h =>
    rw [Kind.hasPartsByKind_of_isClass h] at hkind
    cases hkind
  | looseStatement h =>
    rw [h] at hkind
    cases hkind

variable (hshape : Shape label children)

include hshape

namespace Syntax.Shape

theorem named_of_use {c : Node} (hmem : c ∈ children) (huse : Use c l) :
    c.label.named = true := by
  cases hnamed : c.label.named with
  | true => rfl
  | false => exact absurd huse (hshape.token c hmem hnamed).no_use

theorem ne_parameterList (hfunction : label.kind.isFunction = false) {c : Node}
    (hmem : c ∈ children) : c.label.kind ≠ .parameterList := by
  intro hlist
  rw [(hshape.parameterList c hmem hlist).1] at hfunction
  cases hfunction

theorem isPatternPart (hpatterns : label.kind.holdsPatterns = false) {c : Node}
    (hmem : c ∈ children) : c.label.kind.isPatternPart = false := by
  cases hpart : c.label.kind.isPatternPart with
  | false => rfl
  | true =>
    cases hshape.patternPart c hmem hpart with
    | listed h => rcases h with h | h | h | h <;> rw [h] at hpatterns <;> cases hpatterns
    | value h =>
      rw [h] at hpatterns
      cases hpatterns
    | defaulted h => rcases h with h | h <;> rw [h] at hpatterns <;> cases hpatterns

/-- Outside patterns and functions all children are code. -/
theorem isCode (hpatterns : label.kind.holdsPatterns = false)
    (hfunction : label.kind.isFunction = false) {c : Node} (hmem : c ∈ children) :
    c.label.kind.IsCode :=
  ⟨hshape.isPatternPart hpatterns hmem, hshape.ne_parameterList hfunction hmem⟩

/-- A part of a pattern in a default is the pattern that gets the default. -/
theorem left_of_patternPart (hdefault : label.kind.isDefault = true) {c : Node}
    (hmem : c ∈ children) (hpart : c.label.kind.isPatternPart = true) :
    Node.childInField? .left children = some c := by
  cases hshape.patternPart c hmem hpart with
  | defaulted _ hleft => exact hleft
  | listed h => rcases h with h | h | h | h <;> rw [h] at hdefault <;> cases hdefault
  | value h =>
    rw [h] at hdefault
    cases hdefault

variable (hbelow : ∀ c ∈ children, c.Shaped)

include hbelow

/-- **A child with a use below it, in a node that is read by field**, is a decorator or a
part. -/
theorem part_of_use (hread : label.kind.isReadByField = true) {c : Node} (hmem : c ∈ children)
    (huse : Use c l) :
    c.label.kind = .decorator ∧ label.kind.takesDecorators = true ∨ PartOf label children c := by
  by_cases hdecorator : c.label.kind = .decorator
  · exact Or.inl ⟨hdecorator, hshape.decorator c hmem hdecorator⟩
  · refine Or.inr (hshape.parts hread c hmem (hshape.named_of_use hmem huse) ?_ hdecorator)
    intro hcomment
    have hl := huse.of_leaf (hbelow c hmem) (by rw [hcomment]; rfl)
    have hname := huse.mem_labels.2
    rw [hl, hcomment] at hname
    cases hname

/-- A child with a use below it stands in a field, in a node that has its parts in fields and
nothing else. -/
theorem field_of_use (hread : label.kind.isReadByField = true)
    (hdecorators : label.kind.takesDecorators = false)
    (hparts : label.kind.hasPartsByKind = false) {c : Node} (hmem : c ∈ children)
    (huse : Use c l) :
    ∃ f ∈ readFields label.kind children, Node.childInField? f children = some c := by
  rcases hshape.part_of_use hbelow hread hmem huse with ⟨_, htakes⟩ | hpart
  · rw [hdecorators] at htakes
    cases htakes
  · exact hpart.exists_field hparts

theorem codeField_of_use (hfields : label.kind.hasCodeFields = true) {c : Node}
    (hmem : c ∈ children) (huse : Use c l) :
    (∃ f ∈ readFields label.kind children, Node.childInField? f children = some c) ∧
      c.label.kind.IsCode := by
  have hkind : label.kind.isReadByField = true ∧ label.kind.takesDecorators = false ∧
      label.kind.hasPartsByKind = false ∧ label.kind.holdsPatterns = false ∧
        label.kind.isFunction = false := by
    cases hkind : label.kind <;>
      first | exact ⟨rfl, rfl, rfl, rfl, rfl⟩ | (rw [hkind] at hfields; cases hfields)
  obtain ⟨hread, hdecorators, hparts, hpatterns, hfunction⟩ := hkind
  exact ⟨hshape.field_of_use hbelow hread hdecorators hparts hmem huse,
    hshape.isCode hpatterns hfunction hmem⟩

end Syntax.Shape

end Uses

end ScopeLint
