import ScopeLint.Proofs.Outline.Slots
import ScopeLint.Proofs.Syntax.Distinct

/-! # One value for each name

A tree says of each name that it declares whether the name gets a value there (`Declares`).
In a tree of the shape that the grammar promises, with nodes told apart, it does not say
both of one name (`Declares.unique`).  Going up from the name through the parts of patterns
one comes to a pattern that is no part of another, and to the node that it is a child of
(`Introduces`): whether the name gets a value is told by this node and by the defaults on
the way.
-/

namespace ScopeLint

open Syntax

/-- Whether nodes of a kind have parts when they stand in a pattern. -/
def Syntax.Kind.isPattern (kind : Kind) : Bool :=
  kind.isPatternList || kind.isDefault || kind == .pairPattern || kind == .pair

/-- Whether nodes of a kind hold the local names of an import. -/
def Syntax.Kind.isImportPart : Kind → Bool
  | .importClause | .namespaceImport | .importSpecifier => true
  | _ => false

/-- Whether a node gives a value to the patterns that are children of it. -/
def Syntax.Node.givesValue (node : Node) : Bool :=
  match node.label.kind with
  | .variableDeclarator => (Node.inField? .value node.children).isSome
  | .forInStatement => true
  | _ => false

namespace PatternPart

variable {pattern part : Node} {left : Bool}

theorem mem (h : PatternPart pattern part left) : part ∈ pattern.children := by
  cases h with
  | listed _ hpart _ => exact hpart
  | value _ hpart => exact Node.mem_of_childInField? hpart
  | defaulted _ hpart => exact Node.mem_of_childInField? hpart

theorem left_eq (h : PatternPart pattern part left) : left = pattern.label.kind.isDefault := by
  cases h with
  | listed h => cases hkind : pattern.label.kind <;> first | rfl | (rw [hkind] at h; cases h)
  | value h => rcases h with h | h <;> rw [h] <;> rfl
  | defaulted h => exact h.symm

theorem isPattern (h : PatternPart pattern part left) : pattern.label.kind.isPattern = true := by
  cases h with
  | listed h => simp [Kind.isPattern, h]
  | value h => rcases h with h | h <;> simp [Kind.isPattern, h]
  | defaulted h => simp [Kind.isPattern, h]

end PatternPart

/-- **The nodes of a pattern**, and whether they lie in the left side of a default. -/
inductive InPattern (pattern : Node) : Node → Bool → Prop
  | self : InPattern pattern pattern false
  | part {node part : Node} {underDefault left : Bool} (h : InPattern pattern node underDefault)
      (hpart : PatternPart node part left) : InPattern pattern part (underDefault || left)

theorem NameIn.exists_inPattern {pattern part : Node} {l : Label} {u underDefault : Bool}
    (hl : NameIn part l underDefault) (h : InPattern pattern part u) :
    ∃ node, InPattern pattern node (u || underDefault) ∧ node.label = l := by
  induction hl generalizing u with
  | name _ => exact ⟨_, (Bool.or_false u).symm ▸ h, rfl⟩
  | part hpart _ ih => exact Bool.or_assoc .. ▸ ih (.part h hpart)

/-- **A node that is no pattern has one for a child**, and gives it a value or does not. -/
structure Introduces (root node pattern : Node) (init : Bool) : Prop where
  holds : root.Holds node
  child : pattern ∈ node.children
  kind : node.label.kind.isPattern = false
  value : node.givesValue = init

section Unique

variable {root : Node}

theorem InPattern.holds {pattern node : Node} {u : Bool} (hpattern : root.Holds pattern)
    (h : InPattern pattern node u) : root.Holds node := by
  induction h with
  | self => exact hpattern
  | part _ hpart ih => exact ih.down hpart.mem

/-- A pattern that something introduces is no part of another. -/
theorem Introduces.not_part (hroot : root.Distinct) {outer pattern other : Node} {init left : Bool}
    (h : Introduces root outer pattern init) (hother : root.Holds other)
    (hpart : PatternPart other pattern left) : False := by
  obtain rfl := hroot.parent_unique h.holds hother h.child hpart.mem
  exact Bool.false_ne_true (h.kind.symm.trans hpart.isPattern)

/-- **A node lies in one pattern**, at one place. -/
theorem InPattern.unique (hroot : root.Distinct) {outer pattern outer' pattern' node : Node}
    {init init' u u' : Bool} (hintro : Introduces root outer pattern init)
    (hintro' : Introduces root outer' pattern' init') (h : InPattern pattern node u)
    (h' : InPattern pattern' node u') : pattern = pattern' ∧ u = u' := by
  have hholds := hintro.holds.down hintro.child
  have hholds' := hintro'.holds.down hintro'.child
  induction h generalizing u' with
  | self =>
    cases h' with
    | self => exact ⟨rfl, rfl⟩
    | part hin hpart => exact (hintro.not_part hroot (hin.holds hholds') hpart).elim
  | part hin hpart ih =>
    cases h' with
    | self => exact (hintro'.not_part hroot (hin.holds hholds) hpart).elim
    | part hin' hpart' =>
      obtain rfl := hroot.parent_unique (hin.holds hholds) (hin'.holds hholds') hpart.mem
        hpart'.mem
      obtain ⟨hpattern, hu⟩ := ih hin'
      exact ⟨hpattern, by rw [hu, hpart.left_eq, hpart'.left_eq]⟩

/-- Functions, classes and the parts of an import give no value. -/
theorem Introduces.plain {node child : Node} (hroot : root.Holds node)
    (hchild : child ∈ node.children) (hkind : node.label.kind.isFunction = true ∨
      node.label.kind.isClass = true ∨ node.label.kind.isImportPart = true) :
    Introduces root node child false where
  holds := hroot
  child := hchild
  kind := by cases h : node.label.kind <;> first | rfl | exact absurd (h ▸ hkind) (by decide)
  value := by
    rw [Node.givesValue]
    cases h : node.label.kind <;> first | rfl | exact absurd (h ▸ hkind) (by decide)

theorem PatternAt.exists_introduces (hshaped : root.Shaped) {node pattern : Node}
    (hroot : root.Holds node) {kind : DefinitionKind} {init : Bool}
    (h : PatternAt node pattern kind init) : ∃ outer, Introduces root outer pattern init := by
  cases h with
  | @declarator declarator _ _ _ hmem _ hkind hpattern =>
    exact ⟨declarator, hroot.down hmem, Node.mem_of_childInField? hpattern, by rw [hkind]; rfl,
      by rw [Node.givesValue, hkind]⟩
  | head hkind _ hpattern =>
    exact ⟨node, hroot, Node.mem_of_childInField? hpattern, by rw [hkind]; rfl,
      by rw [Node.givesValue, hkind]⟩
  | @parameter list _ hkind hlist hpattern =>
    have hlistKind := (hshaped.shape hroot).parameters hkind list hlist
    exact ⟨list, hroot.down (Node.mem_of_childInField? hlist), hpattern,
      by rw [hlistKind]; rfl, by rw [Node.givesValue, hlistKind]; rfl⟩
  | onlyParameter hkind _ hpattern =>
    exact ⟨node, .plain hroot (Node.mem_of_childInField? hpattern) (.inl hkind)⟩
  | caught hkind hpattern =>
    exact ⟨node, hroot, Node.mem_of_childInField? hpattern, by rw [hkind]; rfl,
      by rw [Node.givesValue, hkind]⟩

theorem ImportedName.exists_parent {statement : Node} {l : Label} (hroot : root.Holds statement)
    (hl : ImportedName statement.children l) :
    ∃ outer node, root.Holds outer ∧ outer.label.kind.isImportPart = true ∧
      node ∈ outer.children ∧ node.label = l := by
  cases hl with
  | @whole clause part hclause hpart =>
    obtain ⟨hmem, _, hkind⟩ := Node.mem_namedOf.mp hclause
    exact ⟨clause, part, hroot.down hmem, by rw [hkind]; rfl, hpart, rfl⟩
  | @ofNamespace clause part _ hclause hpart hname =>
    obtain ⟨hmem, _, _⟩ := Node.mem_namedOf.mp hclause
    obtain ⟨hmem', _, hkind⟩ := Node.mem_namedOf.mp hpart
    have hlabel := List.mem_of_mem_filter (List.mem_of_find?_eq_some hname)
    obtain ⟨node, hnode, hl⟩ := List.mem_map.mp hlabel
    exact ⟨part, node, (hroot.down hmem).down hmem', by rw [hkind]; rfl, hnode, hl⟩
  | @item clause part spec _ hclause hpart hspec hlocal _ =>
    obtain ⟨hmem, _, _⟩ := Node.mem_namedOf.mp hclause
    obtain ⟨hmem', _, _⟩ := Node.mem_namedOf.mp hpart
    obtain ⟨hmem'', _, hkind⟩ := Node.mem_namedOf.mp hspec
    have hnode : ∃ node ∈ spec.children, node.label = l := by
      rcases Option.or_eq_some_iff.mp hlocal with hfound | ⟨_, hfound⟩ <;>
      · obtain ⟨node, hnode, hl⟩ := Node.exists_child_of_inField? hfound
        exact ⟨node, Node.mem_of_childInField? hnode, hl⟩
    obtain ⟨node, hnode, hl⟩ := hnode
    exact ⟨spec, node, ((hroot.down hmem).down hmem').down hmem'', by rw [hkind]; rfl, hnode, hl⟩

theorem OwnName.exists_introduces {node : Node} {l : Label} {kind : DefinitionKind}
    (hroot : root.Holds node) (h : OwnName node l kind) :
    ∃ outer name, Introduces root outer name false ∧ name.label = l := by
  cases h with
  | function hkind hname =>
    obtain ⟨c, hc, rfl⟩ := Node.exists_child_of_inField? hname
    exact ⟨_, c, .plain hroot (Node.mem_of_childInField? hc) (.inl hkind.1), rfl⟩
  | ofClass hkind hname =>
    obtain ⟨c, hc, rfl⟩ := Node.exists_child_of_inField? hname
    exact ⟨_, c, .plain hroot (Node.mem_of_childInField? hc) (.inr (.inl hkind)), rfl⟩
  | imported _ hl =>
    obtain ⟨outer, name, houter, hpart, hmem, rfl⟩ := hl.exists_parent hroot
    exact ⟨outer, name, .plain houter hmem (.inr (.inr hpart)), rfl⟩

theorem Declares.exists_introduces (hshaped : root.Shaped) {l : Label} {kind : DefinitionKind}
    {valued : Bool} (h : Declares root l kind valued) : ∃ outer pattern node init u,
      Introduces root outer pattern init ∧ InPattern pattern node u ∧ node.label = l ∧
        (init || u) = valued := by
  obtain ⟨_, hroot, h⟩ := h
  cases h with
  | @inPattern pattern _ _ init u hpattern hl =>
    obtain ⟨outer, hintro⟩ := hpattern.exists_introduces hshaped hroot
    obtain ⟨node, hin, hlabel⟩ := hl.exists_inPattern .self
    exact ⟨outer, pattern, node, init, _, hintro, hin, hlabel, rfl⟩
  | ownName hl =>
    obtain ⟨outer, node, hintro, hlabel⟩ := hl.exists_introduces hroot
    exact ⟨outer, node, node, false, false, hintro, .self, hlabel, rfl⟩

/-- **A name gets a value where it is declared, or does not.** -/
theorem Declares.unique (hshaped : root.Shaped) (hroot : root.Distinct) {l l' : Label}
    {kind kind' : DefinitionKind} {valued valued' : Bool} (h : Declares root l kind valued)
    (h' : Declares root l' kind' valued') (hid : l.id = l'.id) : valued = valued' := by
  obtain ⟨outer, pattern, node, init, u, hintro, hin, rfl, rfl⟩ := h.exists_introduces hshaped
  obtain ⟨outer', pattern', node', init', u', hintro', hin', rfl, rfl⟩ :=
    h'.exists_introduces hshaped
  have hholds := hin.holds (hintro.holds.down hintro.child)
  have hholds' := hin'.holds (hintro'.holds.down hintro'.child)
  obtain rfl := hroot.node_unique hholds hholds' hid
  obtain ⟨rfl, rfl⟩ := hin.unique hroot hintro hintro' hin'
  obtain rfl := hroot.parent_unique hintro.holds hintro'.holds hintro.child hintro'.child
  rw [← hintro.value, ← hintro'.value]

end Unique

end ScopeLint
