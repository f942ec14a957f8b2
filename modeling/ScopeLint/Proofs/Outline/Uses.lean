import ScopeLint.Proofs.Syntax.Shape

/-! # The uses of names in a tree

A node of the kind of a name is a use of that name unless it is a label.  The
places of labels are few: the words of a meta property, the name of a tag and of
each of its attributes, and in imports and exports whatever is not a local name.
`Use` says which nodes are uses, without regard to how a tree is visited.
-/

namespace ScopeLint

open Syntax

/-- Whether nodes of a kind hold labels, next to code or instead of it. -/
def Syntax.Kind.holdsLabels : Kind → Bool
  | .metaProperty | .jsxClosingElement | .jsxOpeningElement | .jsxSelfClosingElement
  | .jsxAttribute | .importStatement | .exportStatement => true
  | _ => false

namespace Syntax.Kind

variable {kind : Kind}

theorem functionExpression_cases (h : kind.isFunctionExpression = true) :
    kind.takesName = true ∧ kind.isFunction = true ∧ kind.takesDecorators = false := by
  cases kind <;> first | exact ⟨rfl, rfl, rfl⟩ | cases h

theorem patternList_cases (h : kind.isPatternList = true) :
    kind.isNameNode = false ∧ kind.holdsLabels = false ∧ kind.isFunction = false := by
  cases kind <;> first | exact ⟨rfl, rfl, rfl⟩ | cases h

theorem holdsLabels_of_isDefault (h : kind.isDefault = true) : kind.holdsLabels = false := by
  cases kind <;> first | rfl | cases h

theorem holdsLabels_of_isOrdinary (h : kind.isOrdinary = true) : kind.holdsLabels = false := by
  cases kind <;> first | rfl | cases h

theorem isNameNode_of_isName (h : kind.isName = true) : kind.isNameNode = true := by
  cases kind <;> first | rfl | cases h

end Syntax.Kind

/-- **The children of a node that are code**, and not labels. -/
inductive HoldsCode (label : Label) (children : List Node) : Node → Prop
  | plain {c : Node} (h : label.kind.holdsLabels = false) (hc : c ∈ children) :
      HoldsCode label children c
  | ofTag {c : Node}
      (h : label.kind = .jsxOpeningElement ∨ label.kind = .jsxSelfClosingElement)
      (hc : c ∈ children) (hname : some c.label.id ≠ (Node.inField? .name children).map (·.id)) :
      HoldsCode label children c
  | attributeValue {c : Node} (h : label.kind = .jsxAttribute)
      (hc : c ∈ (children.filter (·.label.named)).tail) : HoldsCode label children c
  | decorator {c : Node} (h : label.kind = .exportStatement) (hc : c ∈ children)
      (hkind : c.label.kind = .decorator) : HoldsCode label children c
  | exported {c : Node} (h : label.kind = .exportStatement)
      (hc : Node.childInField? .declaration children = some c ∨
        Node.childInField? .value children = some c) : HoldsCode label children c

/-- The named nodes of a kind among these. -/
def Syntax.Node.namedOf (kind : Kind) (nodes : List Node) : List Node :=
  nodes.filter fun c => c.label.named && c.label.kind == kind

/-- **The local names of an import**: a default, the name of a namespace, and for
each item its alias, or its name when it has none. -/
inductive ImportedName (children : List Node) : Label → Prop
  | whole {clause part : Node} (hclause : clause ∈ Node.namedOf .importClause children)
      (hpart : part ∈ clause.children) (hnamed : part.label.named = true)
      (hname : part.label.kind.isName = true) : ImportedName children part.label
  | ofNamespace {clause part : Node} {l : Label}
      (hclause : clause ∈ Node.namedOf .importClause children)
      (hpart : part ∈ Node.namedOf .namespaceImport clause.children)
      (hname : (Node.namedLabels part.children).find? (·.kind.isName) = some l) :
      ImportedName children l
  | item {clause part spec : Node} {l : Label}
      (hclause : clause ∈ Node.namedOf .importClause children)
      (hpart : part ∈ Node.namedOf .namedImports clause.children)
      (hspec : spec ∈ Node.namedOf .importSpecifier part.children)
      (hlocal : (Node.inField? .alias spec.children).or (Node.inField? .name spec.children) =
        some l)
      (hname : l.kind.isName = true) : ImportedName children l

/-- **The local names of an export**: the names of its items, when it does not
export from another module. -/
inductive ExportedName (children : List Node) : Label → Prop
  | item {clause spec : Node} {l : Label}
      (hsource : Node.inField? .source children = none)
      (hclause : clause ∈ Node.namedOf .exportClause children)
      (hspec : spec ∈ Node.namedOf .exportSpecifier clause.children)
      (hlocal : Node.inField? .name spec.children = some l)
      (hname : l.kind.isName = true) : ExportedName children l

/-- **The uses of names in a tree.** -/
inductive Use : Node → Label → Prop
  | name {label : Label} {children : List Node} (h : label.kind.isNameNode = true) :
      Use (.node label children) label
  | within {label : Label} {children : List Node} {c : Node} {l : Label}
      (hc : HoldsCode label children c) (h : Use c l) : Use (.node label children) l
  | imported {label : Label} {children : List Node} {l : Label}
      (h : label.kind = .importStatement) (hl : ImportedName children l) :
      Use (.node label children) l
  | exported {label : Label} {children : List Node} {l : Label}
      (h : label.kind = .exportStatement) (hl : ExportedName children l) :
      Use (.node label children) l

/-! ### Clauses -/

namespace Syntax.Node

@[simp] theorem mem_namedOf {kind : Kind} {nodes : List Node} {c : Node} :
    c ∈ namedOf kind nodes ↔ c ∈ nodes ∧ c.label.named = true ∧ c.label.kind = kind := by
  simp [namedOf]

end Syntax.Node

theorem mem_importedBySpecifier {l : Label} {spec : Node} :
    l ∈ importedBySpecifier spec ↔ spec.label.kind = .importSpecifier ∧
      (Node.inField? .alias spec.children).or (Node.inField? .name spec.children) = some l ∧
      l.kind.isName = true := by
  obtain ⟨label, children⟩ := spec
  show l ∈ (if label.kind = .importSpecifier then _ else []) ↔ label.kind = .importSpecifier ∧ _
  by_cases h : label.kind = .importSpecifier
  · simp [h, Option.filter_eq_some_iff, Node.children]
  · simp [h]

theorem mem_exportedBySpecifier {l : Label} {spec : Node} :
    l ∈ exportedBySpecifier spec ↔ spec.label.kind = .exportSpecifier ∧
      Node.inField? .name spec.children = some l ∧ l.kind.isName = true := by
  obtain ⟨label, children⟩ := spec
  show l ∈ (if label.kind = .exportSpecifier then _ else []) ↔ label.kind = .exportSpecifier ∧ _
  by_cases h : label.kind = .exportSpecifier
  · simp [h, Option.filter_eq_some_iff, Node.children]
  · simp [h]

/-- What one part of an import clause declares. -/
theorem mem_importedByPart {l : Label} {part : Node} :
    l ∈ importedByPart part ↔
      (part.label.kind.isName = true ∧ part.label = l) ∨
      (part.label.kind = .namespaceImport ∧
        (Node.namedLabels part.children).find? (·.kind.isName) = some l) ∨
      (part.label.kind = .namedImports ∧
        ∃ spec ∈ Node.namedOf .importSpecifier part.children,
          (Node.inField? .alias spec.children).or (Node.inField? .name spec.children) = some l ∧
            l.kind.isName = true) := by
  obtain ⟨label, children⟩ := part
  show _ ↔ (label.kind.isName = true ∧ label = l) ∨ (label.kind = _ ∧ _) ∨ (label.kind = _ ∧ _)
  have hself : l = label ↔ label = l := eq_comm
  rw [importedByPart]
  cases hkind : label.kind with
  | identifier | undefined => simp [Kind.isName, hself]
  | namespaceImport => simp [Kind.isName, Node.children]
  | namedImports =>
    simp [Kind.isName, mem_importedBySpecifier, Node.children, and_assoc]
  | _ => simp [Kind.isName]

theorem mem_importedNames {l : Label} {children : List Node} :
    l ∈ importedNames children ↔ ImportedName children l := by
  have hclauses : ∀ clause : Node,
      (clause ∈ children.filter fun c => c.label.named && c.label.kind == .importClause) ↔
        clause ∈ Node.namedOf .importClause children := fun _ => Iff.rfl
  simp only [importedNames, List.mem_flatMap, hclauses]
  constructor
  · rintro ⟨clause, hclause, part, hpart, hl⟩
    obtain ⟨hpart, hnamed⟩ := List.mem_filter.mp hpart
    rcases mem_importedByPart.mp hl with ⟨hname, rfl⟩ | ⟨hkind, hname⟩ |
      ⟨hkind, spec, hspec, hlocal, hname⟩
    · exact .whole hclause hpart hnamed hname
    · exact .ofNamespace hclause (Node.mem_namedOf.mpr ⟨hpart, hnamed, hkind⟩) hname
    · exact .item hclause (Node.mem_namedOf.mpr ⟨hpart, hnamed, hkind⟩) hspec hlocal hname
  · rintro (⟨hclause, hpart, hnamed, hname⟩ | ⟨hclause, hpart, hname⟩ |
      ⟨hclause, hpart, hspec, hlocal, hname⟩)
    · exact ⟨_, hclause, _, List.mem_filter.mpr ⟨hpart, hnamed⟩,
        mem_importedByPart.mpr (Or.inl ⟨hname, rfl⟩)⟩
    · obtain ⟨hpart, hnamed, hkind⟩ := Node.mem_namedOf.mp hpart
      exact ⟨_, hclause, _, List.mem_filter.mpr ⟨hpart, hnamed⟩,
        mem_importedByPart.mpr (Or.inr (Or.inl ⟨hkind, hname⟩))⟩
    · obtain ⟨hpart, hnamed, hkind⟩ := Node.mem_namedOf.mp hpart
      exact ⟨_, hclause, _, List.mem_filter.mpr ⟨hpart, hnamed⟩,
        mem_importedByPart.mpr (Or.inr (Or.inr ⟨hkind, _, hspec, hlocal, hname⟩))⟩

theorem mem_exportedNames {l : Label} {children : List Node}
    (hsource : Node.inField? .source children = none) :
    l ∈ exportedNames children ↔ ExportedName children l := by
  have hclauses : ∀ clause : Node,
      (clause ∈ children.filter fun c => c.label.named && c.label.kind == .exportClause) ↔
        clause ∈ Node.namedOf .exportClause children := fun _ => Iff.rfl
  simp only [exportedNames, List.mem_flatMap, hclauses, mem_exportedBySpecifier]
  constructor
  · rintro ⟨clause, hclause, spec, hspec, hkind, hlocal, hname⟩
    obtain ⟨hspec, hnamed⟩ := List.mem_filter.mp hspec
    exact .item hsource hclause (Node.mem_namedOf.mpr ⟨hspec, hnamed, hkind⟩) hlocal hname
  · rintro ⟨_, hclause, hspec, hlocal, hname⟩
    obtain ⟨hspec, hnamed, hkind⟩ := Node.mem_namedOf.mp hspec
    exact ⟨_, hclause, _, List.mem_filter.mpr ⟨hspec, hnamed⟩, hkind, hlocal, hname⟩

/-! ### Where uses lie -/

theorem HoldsCode.mem {label : Label} {children : List Node} {c : Node}
    (h : HoldsCode label children c) : c ∈ children := by
  cases h with
  | plain _ hc | ofTag _ hc | decorator _ hc => exact hc
  | attributeValue _ hc => exact (List.mem_filter.mp (List.mem_of_mem_tail hc)).1
  | exported _ hc => exact hc.elim Node.mem_of_childInField? Node.mem_of_childInField?

/-- Some nodes hold labels only. -/
theorem HoldsCode.kind_ne {label : Label} {children : List Node} {c : Node}
    (h : HoldsCode label children c) : label.kind ≠ .metaProperty ∧
      label.kind ≠ .jsxClosingElement ∧ label.kind ≠ .importStatement := by
  cases h with
  | plain h => refine ⟨?_, ?_, ?_⟩ <;> (intro hkind; rw [hkind] at h; cases h)
  | ofTag h => rcases h with h | h <;> simp [h]
  | attributeValue h | decorator h | exported h => simp [h]

/-- Of a tag's children, its name is no code. -/
theorem HoldsCode.ne_tagName {label : Label} {children : List Node} {c : Node}
    (h : HoldsCode label children c)
    (htag : label.kind = .jsxOpeningElement ∨ label.kind = .jsxSelfClosingElement) :
    some c.label.id ≠ (Node.inField? .name children).map (·.id) := by
  cases h with
  | ofTag _ _ hname => exact hname
  | plain h => rcases htag with htag | htag <;> rw [htag] at h <;> cases h
  | attributeValue h | decorator h | exported h =>
    rcases htag with htag | htag <;> rw [htag] at h <;> cases h

/-- Of an attribute's children, the first is no code. -/
theorem HoldsCode.mem_attributeValue {label : Label} {children : List Node} {c : Node}
    (h : HoldsCode label children c) (hattribute : label.kind = .jsxAttribute) :
    c ∈ (children.filter (·.label.named)).tail := by
  cases h with
  | attributeValue _ hc => exact hc
  | ofTag h => rcases h with h | h <;> rw [hattribute] at h <;> cases h
  | plain h | decorator h | exported h =>
    rw [hattribute] at h
    cases h

/-- The label of a node in a field lies in the tree. -/
theorem Syntax.Node.mem_labels_of_inField? {node : Node} {f : Field} {l : Label}
    (h : inField? f node.children = some l) : l ∈ node.labels := by
  obtain ⟨c, hfield, rfl⟩ := exists_child_of_inField? h
  exact mem_labels_of_child (mem_of_childInField? hfield) c.label_mem

theorem ImportedName.mem_labels {children : List Node} {l : Label}
    (h : ImportedName children l) : l ∈ Node.labelsAll children ∧ l.kind.isNameNode = true := by
  have hlies : ∀ {clause part : Node}, clause ∈ Node.namedOf .importClause children →
      part ∈ clause.children → l ∈ part.labels → l ∈ Node.labelsAll children :=
    fun hclause hpart hl => Node.labels_subset_labelsAll (Node.mem_namedOf.mp hclause).1 l
      (Node.mem_labels_of_child hpart hl)
  cases h with
  | whole hclause hpart _ hname =>
    exact ⟨hlies hclause hpart (Node.label_mem _), Kind.isNameNode_of_isName hname⟩
  | @ofNamespace clause part _ hclause hpart hname =>
    have hmem := (List.mem_filter.mp (List.mem_of_find?_eq_some hname)).1
    obtain ⟨c, hc, rfl⟩ := List.mem_map.mp hmem
    have hlocal : c.label ∈ part.labels := Node.mem_labels_of_child hc c.label_mem
    have hkind : c.label.kind.isName = true := by simpa using List.find?_some hname
    exact ⟨hlies hclause (Node.mem_namedOf.mp hpart).1 hlocal, Kind.isNameNode_of_isName hkind⟩
  | @item clause part spec _ hclause hpart hspec hlocal hname =>
    have hmem : l ∈ spec.labels := by
      rcases Option.or_eq_some_iff.mp hlocal with halias | ⟨_, hname⟩
      · exact Node.mem_labels_of_inField? halias
      · exact Node.mem_labels_of_inField? hname
    have hspec := Node.mem_labels_of_child (Node.mem_namedOf.mp hspec).1 hmem
    exact ⟨hlies hclause (Node.mem_namedOf.mp hpart).1 hspec, Kind.isNameNode_of_isName hname⟩

theorem ExportedName.mem_labels {children : List Node} {l : Label}
    (h : ExportedName children l) : l ∈ Node.labelsAll children ∧ l.kind.isNameNode = true := by
  obtain ⟨_, hclause, hspec, hlocal, hname⟩ := h
  have hmem := Node.mem_labels_of_child (Node.mem_namedOf.mp hspec).1
    (Node.mem_labels_of_inField? hlocal)
  exact ⟨Node.labels_subset_labelsAll (Node.mem_namedOf.mp hclause).1 l hmem,
    Kind.isNameNode_of_isName hname⟩

/-- **A use is a node of the tree of the kind of a name.** -/
theorem Use.mem_labels {node : Node} {l : Label} (h : Use node l) :
    l ∈ node.labels ∧ l.kind.isNameNode = true := by
  induction h with
  | name h => exact ⟨Node.label_mem _, h⟩
  | within hc _ ih => exact ⟨Node.mem_labels_of_child hc.mem ih.1, ih.2⟩
  | imported _ hl => exact ⟨List.mem_cons_of_mem _ hl.mem_labels.1, hl.mem_labels.2⟩
  | exported _ hl => exact ⟨List.mem_cons_of_mem _ hl.mem_labels.1, hl.mem_labels.2⟩

end ScopeLint
