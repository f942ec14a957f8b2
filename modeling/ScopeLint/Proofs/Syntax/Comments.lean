import ScopeLint.Scope.Outline
import ScopeLint.Proofs.Syntax.Shape

/-! # Trees without some of their comments

A tree is **uncommented** when some comments are left out of it, and the nodes that stay are
numbered anew (`Node.Uncommented`).  The nodes that stay keep their order and all else of their
labels.

A comment is an extra: a leaf that stands in no field of its parent, and the grammar attaches
the comments in front of an attribute's name to the tag (`Node.CommentsLoose`).  So what is
chosen among the children of a node by their fields or kinds is chosen without the comments too.
-/

namespace ScopeLint.Syntax

/-- The same label with the id that `f` gives it. -/
def Label.renumber (f : Nat → Nat) (label : Label) : Label := { label with id := f label.id }

namespace Node

/-- Lists of nodes that agree, but for comments that the second leaves out. -/
inductive LeaveOut (same : Node → Node → Prop) : List Node → List Node → Prop
  | nil : LeaveOut same [] []
  | keep {c c' : Node} {rest rest' : List Node} :
      same c c' → LeaveOut same rest rest' → LeaveOut same (c :: rest) (c' :: rest')
  | drop {c : Node} {rest rest' : List Node} :
      c.label.kind = .comment → LeaveOut same rest rest' → LeaveOut same (c :: rest) rest'

/-- **A tree and what is left of it without some of its comments**, where `f` numbers the nodes
that are left. -/
inductive Uncommented (f : Nat → Nat) : Node → Node → Prop
  | node (label : Label) {children children' : List Node} :
      LeaveOut (Uncommented f) children children' →
        Uncommented f (.node label children) (.node (label.renumber f) children')

/-- **Comments are extras** among the children of a node: they are leaves, and stand in no field
and not in front of the name of an attribute. -/
structure ExtraComments (label : Label) (children : List Node) : Prop where
  leaf : ∀ c ∈ children, c.label.kind = .comment → c.children = []
  fields : ∀ c ∈ children, c.label.kind = .comment → c.label.fields = []
  first : label.kind = .jsxAttribute → ∀ l, (namedLabels children).head? = some l →
    l.kind ≠ .comment

/-- **A tree in which comments are extras everywhere.** -/
inductive CommentsLoose : Node → Prop
  | node {label : Label} {children : List Node} (extra : ExtraComments label children)
      (below : ∀ c ∈ children, c.CommentsLoose) : CommentsLoose (.node label children)

variable {f : Nat → Nat}

theorem Uncommented.label_eq {node node' : Node} (h : Uncommented f node node') :
    node'.label = node.label.renumber f := by
  cases h
  rfl

namespace LeaveOut

variable {same : Node → Node → Prop} {children children' : List Node}

/-! ### Selections among children -/

/-- Selecting by a property that agreeing nodes share leaves lists that agree. -/
theorem filter (h : LeaveOut same children children') {p : Node → Bool}
    (hp : ∀ c c', same c c' → p c' = p c) :
    LeaveOut same (children.filter p) (children'.filter p) := by
  induction h with
  | nil => exact .nil
  | @keep c c' rest rest' hc _ ih =>
    rw [List.filter_cons, List.filter_cons, hp c c' hc]
    split
    · exact .keep hc ih
    · exact ih
  | @drop c rest rest' hkind _ ih =>
    rw [List.filter_cons]
    split
    · exact .drop hkind ih
    · exact ih

/-- What the nodes of the lists yield one by one agrees, if comments yield nothing. -/
theorem flatMap {α : Type} {g : α → α} {read read' : Node → List α}
    (h : LeaveOut same children children')
    (hkeep : ∀ c ∈ children, ∀ c', same c c' → read' c' = (read c).map g)
    (hdrop : ∀ c ∈ children, c.label.kind = .comment → read c = []) :
    children'.flatMap read' = (children.flatMap read).map g := by
  induction h with
  | nil => rfl
  | @keep c c' rest rest' hc _ ih =>
    have hrest := ih (fun d hd => hkeep d (List.mem_cons_of_mem _ hd))
      (fun d hd => hdrop d (List.mem_cons_of_mem _ hd))
    rw [List.flatMap_cons, List.flatMap_cons, List.map_append, hrest,
      hkeep c (List.mem_cons_self ..) c' hc]
  | @drop c rest rest' hkind _ ih =>
    have hrest := ih (fun d hd => hkeep d (List.mem_cons_of_mem _ hd))
      (fun d hd => hdrop d (List.mem_cons_of_mem _ hd))
    rw [List.flatMap_cons, hdrop c (List.mem_cons_self ..) hkind, List.nil_append, hrest]

/-- The first node of a kind of nodes that are no comments is there in both, or in neither. -/
theorem find? (h : LeaveOut same children children') {p : Node → Bool}
    (hp : ∀ c c', same c c' → p c' = p c)
    (hdrop : ∀ c ∈ children, c.label.kind = .comment → p c = false) :
    (children.find? p = none ∧ children'.find? p = none) ∨
      ∃ c ∈ children, ∃ c', same c c' ∧ children.find? p = some c ∧
        children'.find? p = some c' := by
  induction h with
  | nil => exact .inl ⟨rfl, rfl⟩
  | @keep c c' rest rest' hc _ ih =>
    rw [List.find?_cons, List.find?_cons, hp c c' hc]
    cases p c with
    | true => exact .inr ⟨c, List.mem_cons_self .., c', hc, rfl, rfl⟩
    | false =>
      rcases ih fun d hd => hdrop d (List.mem_cons_of_mem _ hd) with hnone | ⟨d, hd, hsome⟩
      · exact .inl hnone
      · exact .inr ⟨d, List.mem_cons_of_mem _ hd, hsome⟩
  | @drop c rest rest' hkind _ ih =>
    rw [List.find?_cons, hdrop c (List.mem_cons_self ..) hkind]
    rcases ih fun d hd => hdrop d (List.mem_cons_of_mem _ hd) with hnone | ⟨d, hd, hsome⟩
    · exact .inl hnone
    · exact .inr ⟨d, List.mem_cons_of_mem _ hd, hsome⟩

end LeaveOut

/-! ### Selections by the labels of children -/

section Children

variable {label : Label} {children children' : List Node}
  (h : LeaveOut (Uncommented f) children children')

include h

/-- The first child in a field is no comment. -/
theorem LeaveOut.childInField? (hextra : ExtraComments label children) (place : Field) :
    (Node.childInField? place children = none ∧ Node.childInField? place children' = none) ∨
      ∃ c ∈ children, ∃ c', Uncommented f c c' ∧ Node.childInField? place children = some c ∧
        Node.childInField? place children' = some c' := by
  refine h.find? (fun c c' hc => ?_) fun c hc hkind => ?_
  · rw [hc.label_eq]
    rfl
  · rw [Label.isIn, hextra.fields c hc hkind]
    rfl

theorem LeaveOut.inField? (hextra : ExtraComments label children) (place : Field) :
    Node.inField? place children' = (Node.inField? place children).map (Label.renumber f) := by
  rw [inField?_eq, inField?_eq]
  rcases h.childInField? hextra place with ⟨hnone, hnone'⟩ | ⟨c, _, c', hc, hsome, hsome'⟩
  · rw [hnone, hnone']
    rfl
  · rw [hsome, hsome', Option.map_some, Option.map_some, Option.map_some, hc.label_eq]

theorem LeaveOut.kindInField? (hextra : ExtraComments label children) (place : Field) :
    Node.kindInField? place children' = Node.kindInField? place children := by
  rw [Node.kindInField?, Node.kindInField?, h.inField? hextra, Option.map_map]
  rfl

/-- The first named child that is a name is no comment. -/
theorem LeaveOut.name? : (namedLabels children').find? (·.kind.isName) =
    ((namedLabels children).find? (·.kind.isName)).map (Label.renumber f) := by
  have hread : ∀ nodes : List Node, (namedLabels nodes).find? (·.kind.isName) =
      (nodes.find? fun c => decide (c.label.named = true ∧ c.label.kind.isName = true)).map
        Node.label := by
    intro nodes
    rw [namedLabels, List.find?_filter, List.find?_map]
    rfl
  rw [hread, hread]
  have hfind := h.find?
    (p := fun c => decide (c.label.named = true ∧ c.label.kind.isName = true))
    (fun c c' hc => by rw [hc.label_eq]; rfl)
    fun c _ hkind => by rw [hkind]; exact decide_eq_false fun hname => Bool.noConfusion hname.2
  rcases hfind with ⟨hnone, hnone'⟩ | ⟨c, _, c', hc, hsome, hsome'⟩
  · rw [hnone, hnone']
    rfl
  · rw [hsome, hsome', Option.map_some, Option.map_some, Option.map_some, hc.label_eq]

theorem LeaveOut.hasLexicalHead : ScopeLint.hasLexicalHead children' =
    ScopeLint.hasLexicalHead children := by
  unfold ScopeLint.hasLexicalHead namedLabels
  induction h with
  | nil => rfl
  | @keep c c' rest rest' hc _ ih =>
    rw [List.map_cons, List.map_cons, List.filter_cons, List.filter_cons, hc.label_eq]
    show List.any (if c.label.named = true then _ else _) _ = _
    split
    · rw [List.any_cons, List.any_cons, ih]
      rfl
    · exact ih
  | @drop c rest rest' hkind _ ih =>
    rw [List.map_cons, List.filter_cons]
    split
    · rw [List.any_cons, ih, hkind]
      rfl
    · exact ih

end Children

end Node

end ScopeLint.Syntax
