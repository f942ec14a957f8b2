import ScopeLint.Proofs.Outline.Uses

/-! # Where names are declared

A tree declares names in two ways.  Functions, classes and imports have names of their
own (`OwnName`).  All other names stand in patterns: in a declarator, in the head of a
loop over the items of a value, as a parameter or as the parameter of a catch clause
(`PatternAt`).  A pattern of the first kind gets a value when its declarator has one, one
of the second always, the others not by themselves; but a name in a pattern (`NameIn`)
gets a value in any case when it lies in the left side of a default.

`Declares` says of each name that a tree declares whether it gets a value there, without
regard to how the tree is visited.
-/

namespace ScopeLint

open Syntax

/-- **The parts of a pattern**, and whether one is the left side of a default. -/
inductive PatternPart : Node → Node → Bool → Prop
  | listed {pattern part : Node} (h : pattern.label.kind.isPatternList = true)
      (hpart : part ∈ pattern.children) (hnamed : part.label.named = true) :
      PatternPart pattern part false
  | value {pattern part : Node}
      (h : pattern.label.kind = .pairPattern ∨ pattern.label.kind = .pair)
      (hpart : Node.childInField? .value pattern.children = some part) :
      PatternPart pattern part false
  | defaulted {pattern part : Node} (h : pattern.label.kind.isDefault = true)
      (hpart : Node.childInField? .left pattern.children = some part) :
      PatternPart pattern part true

/-- **A name in a pattern**, and whether it lies in the left side of a default. -/
inductive NameIn : Node → Label → Bool → Prop
  | name {name : Node} (h : name.label.kind.isNameNode = true) : NameIn name name.label false
  | part {pattern part : Node} {l : Label} {left underDefault : Bool}
      (hpart : PatternPart pattern part left) (hl : NameIn part l underDefault) :
      NameIn pattern l (left || underDefault)

/-- **The patterns by which a node declares names**, each with the kind of its definitions
and whether it gets a value as a whole. -/
inductive PatternAt (node : Node) : Node → DefinitionKind → Bool → Prop
  /-- In a declarator, which may have a value. -/
  | declarator {declarator pattern : Node} {keyword : Keyword}
      (hkeyword : node.declarationKeyword? = some keyword)
      (hdeclarator : declarator ∈ node.children) (hnamed : declarator.label.named = true)
      (hkind : declarator.label.kind = .variableDeclarator)
      (hpattern : Node.childInField? .name declarator.children = some pattern) :
      PatternAt node pattern (.declared keyword)
        (Node.inField? .value declarator.children).isSome
  /-- In the head of a loop over the items of a value. -/
  | head {pattern : Node} {keyword : Keyword} (hkind : node.label.kind = .forInStatement)
      (hkeyword : headKeyword? node.children = some keyword)
      (hpattern : Node.childInField? .left node.children = some pattern) :
      PatternAt node pattern (.declared keyword) true
  /-- One of the parameters of a function. -/
  | parameter {list pattern : Node} (hkind : node.label.kind.isFunction = true)
      (hlist : Node.childInField? .parameters node.children = some list)
      (hpattern : pattern ∈ list.children) (hnamed : pattern.label.named = true)
      (hcode : pattern.label.kind ≠ .comment) : PatternAt node pattern .parameter false
  /-- The only parameter of an arrow function, without parentheses. -/
  | onlyParameter {pattern : Node} (hkind : node.label.kind.isFunction = true)
      (hlist : Node.inField? .parameters node.children = none)
      (hpattern : Node.childInField? .parameter node.children = some pattern) :
      PatternAt node pattern .parameter false
  /-- The parameter of a catch clause. -/
  | caught {pattern : Node} (hkind : node.label.kind = .catchClause)
      (hpattern : Node.childInField? .parameter node.children = some pattern) :
      PatternAt node pattern .catchClause false

/-- **The names that functions, classes and imports declare.** -/
inductive OwnName (node : Node) : Label → DefinitionKind → Prop
  | function {l : Label}
      (hkind : node.label.kind.isFunction = true ∧ node.label.kind.takesName = true)
      (hname : Node.inField? .name node.children = some l) : OwnName node l .functionName
  | ofClass {l : Label} (hkind : node.label.kind.isClass = true)
      (hname : Node.inField? .name node.children = some l) : OwnName node l .className
  | imported {l : Label} (hkind : node.label.kind = .importStatement)
      (hl : ImportedName node.children l) : OwnName node l .importBinding

/-- **The names that a node declares**, each with what declares it and whether it gets a
value there. -/
inductive DeclaresAt (node : Node) : Label → DefinitionKind → Bool → Prop
  | inPattern {pattern : Node} {l : Label} {kind : DefinitionKind} {init underDefault : Bool}
      (hpattern : PatternAt node pattern kind init) (hl : NameIn pattern l underDefault) :
      DeclaresAt node l kind (init || underDefault)
  | ownName {l : Label} {kind : DefinitionKind} (hl : OwnName node l kind) :
      DeclaresAt node l kind false

/-- **The names that the nodes of a tree declare.** -/
def Declares (root : Node) (l : Label) (kind : DefinitionKind) (valued : Bool) : Prop :=
  ∃ node, root.Holds node ∧ DeclaresAt node l kind valued

/-- **A node of a tree that is code**, as all nodes around it are. -/
inductive Syntax.Node.HoldsAsCode : Node → Node → Prop
  | self (node : Node) : HoldsAsCode node node
  | child {label : Label} {children : List Node} {c node : Node}
      (hc : HoldsCode label children c) (h : c.HoldsAsCode node) :
      HoldsAsCode (.node label children) node

theorem Syntax.Node.HoldsAsCode.holds {root node : Node} (h : root.HoldsAsCode node) :
    root.Holds node := by
  induction h with
  | self => exact .self _
  | child hc _ ih => exact .child hc.mem ih

/-! ### The names of patterns -/

namespace Pattern

variable {u : Bool} {nodes : List Node} {name : Label × Bool}

theorem mem_namesInNamed : name ∈ namesInNamed u nodes ↔
    ∃ c ∈ nodes, c.label.named = true ∧ name ∈ names u c := by
  induction nodes with
  | nil => simp [namesInNamed]
  | cons c rest ih =>
    rw [namesInNamed, List.mem_append, ih]
    by_cases h : c.label.named = true <;> simp [h]

theorem mem_namesInField {f : Field} : name ∈ namesInField u f nodes ↔
    ∃ c, Node.childInField? f nodes = some c ∧ name ∈ names u c := by
  induction nodes with
  | nil => simp [namesInField, Node.childInField?]
  | cons c rest ih =>
    rw [namesInField, Node.childInField?, List.find?_cons]
    cases c.label.isIn f with
    | true => simp
    | false => exact ih

end Pattern

mutual

/-- The names that are listed for a pattern are those in it; a name lies under a default
when the pattern does, or when it lies in the left side of a default within. -/
theorem Pattern.nameIn_of_mem (u : Bool) : ∀ node : Node, ∀ name ∈ names u node,
    ∃ underDefault, NameIn node name.1 underDefault ∧ name.2 = (u || underDefault)
  | .node label children, name, hname => by
      by_cases hself : label.kind.isNameNode = true
      · rw [names_of_name u hself, List.mem_singleton] at hname
        have hown : NameIn (.node label children) label false := .name hself
        exact ⟨false, hname ▸ hown, hname ▸ (Bool.or_false u).symm⟩
      by_cases hlist : label.kind.isPatternList = true
      · rw [names_of_list u hlist] at hname
        obtain ⟨c, hc, hnamed, under, hl, hu⟩ := nameIn_of_mem_named u children name hname
        have hpart : PatternPart (.node label children) c false := .listed hlist hc hnamed
        exact ⟨under, .part hpart hl, hu⟩
      by_cases hpair : label.kind = .pairPattern ∨ label.kind = .pair
      · rw [names_of_pair u hpair] at hname
        obtain ⟨c, hc, under, hl, hu⟩ := nameIn_of_mem_field u .value children name hname
        have hpart : PatternPart (.node label children) c false := .value hpair hc
        exact ⟨under, .part hpart hl, hu⟩
      by_cases hdefault : label.kind.isDefault = true
      · rw [names_of_default u hdefault] at hname
        obtain ⟨c, hc, under, hl, hu⟩ := nameIn_of_mem_field true .left children name hname
        have hpart : PatternPart (.node label children) c true := .defaulted hdefault hc
        exact ⟨true, .part hpart hl, hu.trans (Bool.or_true u).symm⟩
      · rw [names_of_other u (Bool.eq_false_iff.mpr hself) (Bool.eq_false_iff.mpr hlist)
          (not_or.mp hpair) (Bool.eq_false_iff.mpr hdefault)] at hname
        exact absurd hname List.not_mem_nil

theorem Pattern.nameIn_of_mem_named (u : Bool) : ∀ nodes : List Node,
    ∀ name ∈ namesInNamed u nodes, ∃ c ∈ nodes, c.label.named = true ∧
      ∃ underDefault, NameIn c name.1 underDefault ∧ name.2 = (u || underDefault)
  | [], name, hname => absurd hname List.not_mem_nil
  | child :: rest, name, hname => by
      rw [namesInNamed] at hname
      rcases List.mem_append.mp hname with hname | hname
      · split at hname
        · exact ⟨child, List.mem_cons_self .., ‹_›, nameIn_of_mem u child name hname⟩
        · exact absurd hname List.not_mem_nil
      · obtain ⟨c, hc, hfound⟩ := nameIn_of_mem_named u rest name hname
        exact ⟨c, List.mem_cons_of_mem _ hc, hfound⟩

theorem Pattern.nameIn_of_mem_field (u : Bool) (f : Field) : ∀ nodes : List Node,
    ∀ name ∈ namesInField u f nodes, ∃ c, Node.childInField? f nodes = some c ∧
      ∃ underDefault, NameIn c name.1 underDefault ∧ name.2 = (u || underDefault)
  | [], name, hname => absurd hname List.not_mem_nil
  | child :: rest, name, hname => by
      rw [namesInField] at hname
      rw [Node.childInField?, List.find?_cons]
      split at hname
      · rename_i hin
        rw [hin]
        exact ⟨child, rfl, nameIn_of_mem u child name hname⟩
      · rename_i hin
        rw [Bool.eq_false_iff.mpr hin]
        exact nameIn_of_mem_field u f rest name hname

end

/-! ### The other way round -/

/-- A name in a pattern is listed for it, whether the pattern lies under a default or not. -/
theorem NameIn.mem_names {pattern : Node} {l : Label} {underDefault : Bool}
    (h : NameIn pattern l underDefault) (u : Bool) :
    (l, u || underDefault) ∈ Pattern.names u pattern := by
  induction h generalizing u with
  | @name name h =>
    obtain ⟨label, children⟩ := name
    have hkind : label.kind.isNameNode = true := h
    rw [Pattern.names_of_name u hkind, Bool.or_false]
    exact List.mem_singleton_self _
  | @part pattern part l left underDefault hpart _ ih =>
    obtain ⟨label, children⟩ := pattern
    cases hpart with
    | listed h hpart hnamed =>
      have hkind : label.kind.isPatternList = true := h
      rw [Pattern.names_of_list u hkind, Bool.false_or]
      exact Pattern.mem_namesInNamed.mpr ⟨part, hpart, hnamed, ih u⟩
    | value h hpart =>
      have hkind : label.kind = .pairPattern ∨ label.kind = .pair := h
      rw [Pattern.names_of_pair u hkind, Bool.false_or]
      exact Pattern.mem_namesInField.mpr ⟨part, hpart, ih u⟩
    | defaulted h hpart =>
      have hkind : label.kind.isDefault = true := h
      rw [Pattern.names_of_default u hkind, Bool.true_or, Bool.or_true]
      exact Pattern.mem_namesInField.mpr ⟨part, hpart, ih true⟩

/-- Which names are listed does not depend on the defaults around the pattern. -/
theorem Pattern.mem_fst_names {u : Bool} (v : Bool) {node : Node} {l : Label}
    (h : l ∈ (names u node).map Prod.fst) : l ∈ (names v node).map Prod.fst := by
  obtain ⟨name, hname, rfl⟩ := List.mem_map.mp h
  obtain ⟨underDefault, hin, _⟩ := nameIn_of_mem u node name hname
  exact List.mem_map.mpr ⟨_, hin.mem_names v, rfl⟩

end ScopeLint
