import ScopeLint.Proofs.Outline.Shares
import ScopeLint.Proofs.Outline.Uses

/-! # Outlines are drawn from their trees

Whatever the tree and the role of a node, its outline names only nodes at or below
it, and opens only scopes of constructs: the scopes of a whole program are opened
for the program itself (`outline_within`).  Nothing is supposed of the tree here,
so these facts hold also where a parser breaks its promises.
-/

namespace ScopeLint

open Syntax

/-- Whether scopes of a kind stand for a whole program. -/
def ScopeKind.isWhole : ScopeKind → Bool
  | global | module => true
  | _ => false

/-- **An entry is drawn from a tree** with these labels: its names are nodes of the
tree, and its scopes are those of constructs. -/
inductive Entry.Within (labels : List Label) : Entry → Prop
  | definition {name : Label} (kind : DefinitionKind) :
      name ∈ labels → Within labels (.definition name kind)
  | reference {name : Label} (access : Access) (init : Bool) :
      name ∈ labels → Within labels (.reference name access init)
  | scope {kind : ScopeKind} (span : Span) {entries : List Entry} :
      kind.isWhole = false → (∀ e ∈ entries, Within labels e) →
        Within labels (.scope kind span entries)

theorem Entry.Within.mono {labels labels' : List Label} (hsub : ∀ l ∈ labels, l ∈ labels')
    {e : Entry} (h : e.Within labels) : e.Within labels' := by
  induction h with
  | definition kind hname => exact .definition kind (hsub _ hname)
  | reference access init hname => exact .reference access init (hsub _ hname)
  | scope span hkind _ ih => exact .scope span hkind ih

/-! ### Names of patterns -/

mutual

theorem Pattern.names_mem_labels (u : Bool) : ∀ node : Node,
    ∀ name ∈ names u node, name.1 ∈ node.labels
  | .node label children, name, hname => by
      rw [names] at hname
      split at hname
      case h_1 | h_2 | h_3 | h_4 =>
        rw [List.mem_singleton.mp hname]
        exact Node.label_mem _
      case h_5 | h_6 | h_7 | h_8 | h_9 | h_10 | h_11 =>
        exact List.mem_cons_of_mem _ (namesInNamed_mem_labels u children name hname)
      case h_12 | h_13 =>
        exact List.mem_cons_of_mem _ (namesInField_mem_labels u .value children name hname)
      case h_14 | h_15 | h_16 =>
        exact List.mem_cons_of_mem _ (namesInField_mem_labels true .left children name hname)
      case h_17 => exact absurd hname List.not_mem_nil

theorem Pattern.namesInNamed_mem_labels (u : Bool) : ∀ nodes : List Node,
    ∀ name ∈ namesInNamed u nodes, name.1 ∈ Node.labelsAll nodes
  | [], name, hname => absurd hname List.not_mem_nil
  | child :: rest, name, hname => by
      rw [namesInNamed] at hname
      rcases List.mem_append.mp hname with hname | hname
      · split at hname
        · exact List.mem_append_left _ (names_mem_labels u child name hname)
        · exact absurd hname List.not_mem_nil
      · exact List.mem_append_right _ (namesInNamed_mem_labels u rest name hname)

theorem Pattern.namesInField_mem_labels (u : Bool) (f : Field) : ∀ nodes : List Node,
    ∀ name ∈ namesInField u f nodes, name.1 ∈ Node.labelsAll nodes
  | [], name, hname => absurd hname List.not_mem_nil
  | child :: rest, name, hname => by
      rw [namesInField] at hname
      split at hname
      · exact List.mem_append_left _ (names_mem_labels u child name hname)
      · exact List.mem_append_right _ (namesInField_mem_labels u f rest name hname)

end

theorem Pattern.declarations_within {labels : List Label} (kind : DefinitionKind) (init : Bool)
    {names : List (Label × Bool)} (h : ∀ name ∈ names, name.1 ∈ labels) :
    ∀ e ∈ declarations kind init names, e.Within labels := by
  intro e he
  obtain ⟨⟨name, underDefault⟩, hname, he⟩ := List.mem_flatMap.mp he
  rcases List.mem_cons.mp he with rfl | he
  · exact .definition kind (h _ hname)
  · split at he
    · rw [List.mem_singleton.mp he]
      exact .reference .write true (h _ hname)
    · exact absurd he List.not_mem_nil

theorem Pattern.assignments_within {labels : List Label} {names : List (Label × Bool)}
    (h : ∀ name ∈ names, name.1 ∈ labels) : ∀ e ∈ assignments names, e.Within labels := by
  intro e he
  obtain ⟨⟨name, underDefault⟩, hname, rfl⟩ := List.mem_map.mp he
  exact .reference .write false (h _ hname)

/-! ### Plans -/

/-- A part whose own entries and scopes are drawn from a tree. -/
inductive Part.Within (labels : List Label) : Part → Prop
  | entry {e : Entry} : e.Within labels → Within labels (.entry e)
  | named (role : Role) : Within labels (.named role)
  | laterNamed (role : Role) : Within labels (.laterNamed role)
  | field (field : Field) (role : Role) : Within labels (.field field role)
  | scope {kind : ScopeKind} (span : Span) {parts : List Part} :
      kind.isWhole = false → (∀ part ∈ parts, Within labels part) →
        Within labels (.scope kind span parts)

namespace Part

variable {labels : List Label}

attribute [simp] Within.named Within.laterNamed Within.field

@[simp] theorem within_entry_iff {e : Entry} : (Part.entry e).Within labels ↔ e.Within labels :=
  ⟨fun | .entry h => h, .entry⟩

@[simp] theorem within_scope_iff {kind : ScopeKind} {span : Span} {parts : List Part} :
    (Part.scope kind span parts).Within labels ↔
      kind.isWhole = false ∧ ∀ part ∈ parts, part.Within labels :=
  ⟨fun | .scope _ hkind h => ⟨hkind, h⟩, fun h => .scope span h.1 h.2⟩

theorem entries_within {es : List Entry} (h : ∀ e ∈ es, e.Within labels) :
    ∀ part ∈ es.map Part.entry, part.Within labels := by
  intro part hpart
  obtain ⟨e, he, rfl⟩ := List.mem_map.mp hpart
  exact .entry (h e he)

end Part

section Plans

variable (label : Label) (children : List Node)

theorem Part.definitionInField_within (kind : DefinitionKind) (field : Field) :
    ∀ part ∈ definitionInField kind field children,
      part.Within (Node.node label children).labels := by
  unfold definitionInField
  cases hname : Node.inField? field children with
  | none => simp
  | some name =>
    have hmem : name ∈ (Node.node label children).labels := Node.mem_labels_of_inField? hname
    simpa using Entry.Within.definition kind hmem

theorem Part.computedKey_within (labels : List Label) (place : Field) :
    ∀ part ∈ computedKey place children, part.Within labels := by
  unfold computedKey
  split <;> simp

theorem Part.function_within (labels : List Label) (span : Span) :
    (function span children).Within labels := by
  unfold function sharedBody
  split <;> split <;> simp [ScopeKind.isWhole]

theorem Part.scopeOverField_within (labels : List Label) {kind : ScopeKind}
    (hkind : kind.isWhole = false) (field : Field) (role : Role) :
    ∀ part ∈ scopeOverField kind field role children, part.Within labels := by
  unfold scopeOverField
  cases Node.inField? field children <;> simp [hkind]

theorem Part.assignedPattern_within :
    ∀ part ∈ assignedPattern children, part.Within (Node.node label children).labels := by
  have hnames : ∀ name ∈ Pattern.namesInNamed false children,
      name.1 ∈ (Node.node label children).labels := fun name hname =>
    List.mem_cons_of_mem _ (Pattern.namesInNamed_mem_labels false children name hname)
  refine List.forall_mem_append.mpr ⟨?_, by simp⟩
  exact Part.entries_within (Pattern.assignments_within hnames)

/-- The plan of a statement or an expression names nodes of its tree only. -/
theorem codePlan_within :
    ∀ part ∈ codePlan label children, part.Within (Node.node label children).labels := by
  have hself : label ∈ (Node.node label children).labels := Node.label_mem _
  have hfunction := Part.function_within children (Node.node label children).labels label.span
  have hname := fun kind => Part.definitionInField_within label children kind .name
  have hkey := Part.computedKey_within children (Node.node label children).labels
  have hform := codePlan_form label children
  generalize codePlan label children = plan at hform
  cases hform with
  | name => simpa using Entry.Within.reference .read false hself
  | functionDeclaration =>
    exact List.forall_mem_append.mpr ⟨hname _, by simpa using hfunction⟩
  | namedFunction h name hfound =>
    have hmem : name ∈ (Node.node label children).labels := Node.mem_labels_of_inField? hfound
    have hentry := Entry.Within.definition .functionName hmem
    simpa [ScopeKind.isWhole] using ⟨hentry, hfunction⟩
  | function => simpa using hfunction
  | method =>
    refine List.forall_mem_append.mpr ⟨List.forall_mem_append.mpr ⟨by simp, hkey _⟩, ?_⟩
    simpa using hfunction
  | classDeclaration =>
    exact List.forall_mem_append.mpr ⟨hname _, by simp [Part.classScope, ScopeKind.isWhole]⟩
  | classExpression =>
    have hparts := List.forall_mem_append.mpr
      ⟨hname .className, List.forall_mem_singleton.mpr (.named .classPart)⟩
    simpa [Part.classScope, ScopeKind.isWhole] using hparts
  | classField =>
    refine List.forall_mem_append.mpr ⟨List.forall_mem_append.mpr ⟨by simp, hkey _⟩, ?_⟩
    exact Part.scopeOverField_within children _ rfl .value .code
  | enclosed h kind hkind => rcases hkind with rfl | rfl <;> simp [ScopeKind.isWhole]
  | switchStatement =>
    exact List.forall_mem_append.mpr
      ⟨by simp, Part.scopeOverField_within children _ rfl .body .contents⟩
  | withStatement =>
    exact List.forall_mem_append.mpr
      ⟨by simp, Part.scopeOverField_within children _ rfl .body .code⟩
  | assignedPattern => exact Part.assignedPattern_within label children
  | importStatement =>
    intro part hpart
    obtain ⟨name, hname, rfl⟩ := List.mem_map.mp hpart
    have hmem := (mem_importedNames.mp hname).mem_labels.1
    exact .entry (.definition .importBinding (List.mem_cons_of_mem _ hmem))
  | exportStatement h hsource =>
    refine List.forall_mem_append.mpr ⟨by simp, fun part hpart => ?_⟩
    obtain ⟨name, hname, rfl⟩ := List.mem_map.mp hpart
    have hnone : Node.inField? .source children = none := by simpa using hsource
    have hmem := ((mem_exportedNames hnone).mp hname).mem_labels.1
    exact .entry (.reference .read false (List.mem_cons_of_mem _ hmem))
  | _ => simp [ScopeKind.isWhole]

theorem patternPlan_within :
    ∀ part ∈ patternPlan label children, part.Within (Node.node label children).labels := by
  have hform := patternPlan_form label children
  generalize patternPlan label children = plan at hform
  cases hform with
  | pair =>
    exact List.forall_mem_append.mpr ⟨Part.computedKey_within children _ .key, by simp⟩
  | code => exact codePlan_within label children
  | _ => simp

theorem bindingPlan_within (kind : DefinitionKind) (init : Bool) :
    ∀ part ∈ bindingPlan kind init label children,
      part.Within (Node.node label children).labels := by
  refine List.forall_mem_append.mpr ⟨?_, patternPlan_within label children⟩
  exact Part.entries_within (Pattern.declarations_within kind init
    (Pattern.names_mem_labels false (.node label children)))

/-- Every plan names nodes of its tree only. -/
theorem plan_within (role : Role) :
    ∀ part ∈ plan role label children, part.Within (Node.node label children).labels := by
  have hself : label ∈ (Node.node label children).labels := Node.label_mem _
  have hcode := codePlan_within label children
  cases role with
  | code => exact hcode
  | contents | parameters => simp [plan]
  | pattern => exact patternPlan_within label children
  | binding kind init => exact bindingPlan_within label children kind init
  | target =>
    have hform := targetPlan_form label children
    generalize plan .target label children = parts at hform
    cases hform with
    | name => simpa using Entry.Within.reference .write false hself
    | parenthesized => simp
    | pattern => exact Part.assignedPattern_within label children
    | code => exact hcode
  | updated =>
    have hform := updatedPlan_form label children
    generalize plan .updated label children = parts at hform
    cases hform with
    | name => simpa using Entry.Within.reference .readWrite false hself
    | parenthesized => simp
    | code => exact hcode
  | declarator keyword =>
    rw [plan]
    split <;> simp
  | parameter =>
    rw [plan]
    split
    · simp
    · exact bindingPlan_within label children .parameter false
  | decorator | classPart =>
    rw [plan]
    split <;> simp
  | tagPart name =>
    rw [plan]
    split
    · simp
    · exact hcode

end Plans

/-! ### Outlines -/

/-- What lies below a node is drawn from a tree. -/
structure Below.Within (labels : List Label) (below : Below) : Prop where
  named : ∀ role, ∀ e ∈ below.named role, e.Within labels
  laterNamed : ∀ role, ∀ e ∈ below.laterNamed role, e.Within labels
  field : ∀ field role, ∀ e ∈ below.field field role, e.Within labels

theorem Part.mem_entriesAll {below : Below} {e : Entry} : ∀ {parts : List Part},
    e ∈ entriesAll below parts ↔ ∃ part ∈ parts, e ∈ part.entries below
  | [] => by simp [entriesAll]
  | part :: rest => by
      rw [entriesAll, List.mem_append, @mem_entriesAll below e rest, List.exists_mem_cons_iff]

theorem Part.Within.entries_within {labels : List Label} {below : Below}
    (hbelow : below.Within labels) {part : Part} (h : part.Within labels) :
    ∀ e ∈ part.entries below, e.Within labels := by
  induction h with
  | entry he => exact List.forall_mem_singleton.mpr he
  | named role => exact hbelow.named role
  | laterNamed role => exact hbelow.laterNamed role
  | field field role => exact hbelow.field field role
  | scope span hkind _ ih =>
    refine List.forall_mem_singleton.mpr (.scope span hkind fun e he => ?_)
    obtain ⟨part, hpart, he⟩ := Part.mem_entriesAll.mp he
    exact ih part hpart e he

section Children

variable {role : Role} {e : Entry}

/-- What named children contribute is in the outline of one of them. -/
theorem exists_of_mem_outlineNamed : ∀ {nodes : List Node}, e ∈ outlineNamed role nodes →
    ∃ c ∈ nodes, e ∈ c.outline role
  | [], he => absurd he List.not_mem_nil
  | child :: rest, he => by
      rw [outlineNamed] at he
      rcases List.mem_append.mp he with he | he
      · split at he
        · exact ⟨child, List.mem_cons_self .., he⟩
        · exact absurd he List.not_mem_nil
      · obtain ⟨c, hc, he⟩ := exists_of_mem_outlineNamed he
        exact ⟨c, List.mem_cons_of_mem _ hc, he⟩

theorem exists_of_mem_outlineLater : ∀ {nodes : List Node}, e ∈ outlineLater role nodes →
    ∃ c ∈ nodes, e ∈ c.outline role
  | [], he => absurd he List.not_mem_nil
  | child :: rest, he => by
      rw [outlineLater] at he
      split at he
      · obtain ⟨c, hc, he⟩ := exists_of_mem_outlineNamed he
        exact ⟨c, List.mem_cons_of_mem _ hc, he⟩
      · obtain ⟨c, hc, he⟩ := exists_of_mem_outlineLater he
        exact ⟨c, List.mem_cons_of_mem _ hc, he⟩

theorem exists_of_mem_outlineField {field : Field} : ∀ {nodes : List Node},
    e ∈ outlineField field role nodes → ∃ c ∈ nodes, e ∈ c.outline role
  | [], he => absurd he List.not_mem_nil
  | child :: rest, he => by
      rw [outlineField] at he
      split at he
      · exact ⟨child, List.mem_cons_self .., he⟩
      · obtain ⟨c, hc, he⟩ := exists_of_mem_outlineField he
        exact ⟨c, List.mem_cons_of_mem _ hc, he⟩

/-- What is found by field is the first child in it. -/
theorem outlineField_eq (field : Field) (role : Role) (nodes : List Node) :
    outlineField field role nodes =
      ((Node.childInField? field nodes).map (Node.outline role)).getD [] := by
  induction nodes with
  | nil => rfl
  | cons child rest ih =>
    rw [outlineField, Node.childInField?, List.find?_cons]
    cases child.label.isIn field with
    | true => rfl
    | false => exact ih

end Children

mutual

/-- **The outline of a node is drawn from its tree.** -/
theorem outline_within (role : Role) : ∀ node : Node,
    ∀ e ∈ node.outline role, e.Within node.labels
  | .node label children, e, he => by
      have hchild : ∀ {role : Role} {e : Entry}, (∃ c ∈ children, e ∈ c.outline role) →
          e.Within (Node.node label children).labels := by
        rintro role e ⟨c, hc, he⟩
        exact (outlines_within children c hc role e he).mono fun _ => List.mem_cons_of_mem _
      have hbelow : (Below.ofChildren children).Within (Node.node label children).labels :=
        ⟨fun _ _ he => hchild (exists_of_mem_outlineNamed he),
          fun _ _ he => hchild (exists_of_mem_outlineLater he),
          fun _ _ _ he => hchild (exists_of_mem_outlineField he)⟩
      rw [outline_node] at he
      obtain ⟨part, hpart, he⟩ := Part.mem_entriesAll.mp he
      exact (plan_within label children role part hpart).entries_within hbelow e he

theorem outlines_within : ∀ nodes : List Node, ∀ c ∈ nodes, ∀ role : Role,
    ∀ e ∈ c.outline role, e.Within (Node.labelsAll nodes)
  | [], _, hc, _, _, _ => absurd hc List.not_mem_nil
  | child :: rest, c, hc, role, e, he => by
      rcases List.mem_cons.mp hc with hfirst | hc
      · rw [hfirst] at he
        exact (outline_within role child e he).mono fun _ => List.mem_append_left _
      · exact (outlines_within rest c hc role e he).mono fun _ => List.mem_append_right _

end

/-! ### What follows -/

theorem mem_mentionsAll {l : Label} {es : List Entry} :
    l ∈ mentionsAll es ↔ ∃ e ∈ es, l ∈ e.mentions := by
  induction es with
  | nil => simp [mentionsAll]
  | cons e es ih => rw [mentionsAll, List.mem_append, ih, List.exists_mem_cons_iff]

theorem Entry.Within.mem_of_mention {labels : List Label} {e : Entry} (h : e.Within labels)
    {l : Label} (hl : l ∈ e.mentions) : l ∈ labels := by
  induction h with
  | definition kind hname =>
    rw [List.mem_singleton.mp hl]
    exact hname
  | reference access init hname =>
    cases init with
    | true => exact absurd hl List.not_mem_nil
    | false =>
      rw [List.mem_singleton.mp hl]
      exact hname
  | scope span _ _ ih =>
    obtain ⟨e, he, hl⟩ := mem_mentionsAll.mp hl
    exact ih e he hl

/-- **A mention is a node of the tree.** -/
theorem mem_labels_of_mention {node : Node} {role : Role} {l : Label}
    (hl : l ∈ mentionsAll (node.outline role)) : l ∈ node.labels := by
  obtain ⟨e, he, hl⟩ := mem_mentionsAll.mp hl
  exact (outline_within role node e he).mem_of_mention hl

end ScopeLint
