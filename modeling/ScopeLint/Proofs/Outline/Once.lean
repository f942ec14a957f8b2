import ScopeLint.Proofs.Outline.PartShares

/-! # An outline mentions every node at most once

By induction over the syntax tree: what a node mentions in any role lies at or
below it, counted with multiplicity (`covers`).  So a program whose nodes are told apart
mentions none twice (`Program.mentions_nodup`).
-/

namespace ScopeLint

open Syntax

section Plans

variable {x : Label} {children : List Node} (hc : ∀ c ∈ children, Covers x c)
  (hplaced : ∀ c ∈ children, c.label.Placed)

include hc

theorem weight_named_le (role : Role) :
    weight x children [.named role] ≤ (Node.labelsAll children).count x := by
  rw [weight_named]
  exact named_le hc role

/-- The names that a pattern assigns and the code inside it. -/
theorem weight_assignedPattern_le :
    weight x children (Part.assignedPattern children) ≤ (Node.labelsAll children).count x := by
  rw [Part.assignedPattern, weight_append, weight_entries, weight_named, mentionCount,
    mentionsAll_assignments]
  exact patterns_le hc false

include hplaced

/-- The parts that read fields only. -/
theorem weight_fields_le (fs : List (Field × Role)) (hnodup : (fs.map Prod.fst).Nodup) :
    weight x children (fs.map fun p => .field p.1 p.2) ≤ (Node.labelsAll children).count x := by
  have hsum : weight x children (fs.map fun p => .field p.1 p.2) =
      fieldCount x fs children := by
    clear hnodup
    induction fs with
    | nil => rfl
    | cons p rest ih => rw [List.map_cons, weight_cons, weight_field, ih, fieldCount_cons]
  rw [hsum]
  exact fields_le hc hplaced fs hnodup

/-- The name of a function, its parameters and its body. -/
theorem weight_function_le (span : Span) :
    (Node.inField? .name children).toList.count x +
        weight x children [Part.function span children] ≤
      (Node.labelsAll children).count x := by
  obtain ⟨f, r, r', hf, hfunction⟩ := weight_function x children span
  have hnodup : [Field.name, f, .body].Nodup := by rcases hf with rfl | rfl <;> decide
  obtain ⟨hname, hrest⟩ := List.nodup_cons.mp hnodup
  have hle := nameAndFields_le hc hplaced [(f, r), (.body, r')] hrest hname
  rw [hfunction]
  simpa using hle

/-- The decorators of a method, its key, its parameters and its body. -/
theorem weight_method_le (span : Span) :
    mentionCount x (outlineNamed .decorator children) +
        weight x children (Part.computedKey .name children) +
          weight x children [Part.function span children] ≤
      (Node.labelsAll children).count x := by
  obtain ⟨f, r, r', hf, hfunction⟩ := weight_function x children span
  obtain ⟨hnodup, hdecorator⟩ :
      [Field.name, f, .body].Nodup ∧ Field.decorator ∉ [Field.name, f, .body] := by
    rcases hf with rfl | rfl <;> decide
  have hle := decorated_le hc hplaced [(.name, .code), (f, r), (.body, r')] hnodup hdecorator
  have hkey := weight_computedKey x children .name
  rw [hfunction]
  simp only [fieldCount_cons, fieldCount_nil] at hle
  omega

/-- What a statement or an expression mentions, but for a name, lies below it. -/
theorem weight_codePlan_le (label : Label) :
    weight x children (codePlan label children) ≤
      (Node.node label children).labels.count x := by
  -- The parts of one plan read different children, so their counts add up below the node.
  have hform := codePlan_form label children
  generalize codePlan label children = parts at hform
  have hfunction := weight_function_le hc hplaced label.span
  cases hform with
  | name =>
    rw [weight_entry, Node.count_labels]
    exact Nat.le_add_right _ _
  | silent => exact Nat.zero_le _
  | declaration h keyword => exact Node.le_count_labels (weight_named_le hc _)
  | ordinary => exact Node.le_count_labels (weight_named_le hc _)
  | enclosed h kind =>
    rw [weight_scope]
    exact Node.le_count_labels (weight_named_le hc _)
  | looseStaticBlock =>
    rw [weight_scope]
    exact Node.le_count_labels (weight_named_le hc _)
  | tag => exact Node.le_count_labels (weight_named_le hc _)
  | tagAttribute =>
    rw [weight_laterNamed]
    exact Node.le_count_labels (laterNamed_le hc _)
  | staticBlock =>
    rw [weight_scope]
    exact Node.le_count_labels (weight_fields_le hc hplaced [(.body, .contents)] (by decide))
  | forVar =>
    exact Node.le_count_labels (weight_fields_le hc hplaced
      [(.left, _), (.value, _), (.right, _), (.body, _)] (by simp))
  | forLexical =>
    rw [weight_scope]
    exact Node.le_count_labels
      (weight_fields_le hc hplaced [(.left, _), (.right, _), (.body, _)] (by simp))
  | forTarget =>
    exact Node.le_count_labels
      (weight_fields_le hc hplaced [(.left, _), (.right, _), (.body, _)] (by simp))
  | catchClause =>
    rw [weight_scope]
    exact Node.le_count_labels (weight_fields_le hc hplaced [(.parameter, _), (.body, _)] (by simp))
  | assignment | augmented =>
    exact Node.le_count_labels (weight_fields_le hc hplaced [(.left, _), (.right, _)] (by simp))
  | update => exact Node.le_count_labels (weight_fields_le hc hplaced [(.argument, _)] (by simp))
  | switchStatement =>
    have hle := fields_le hc hplaced [(.value, .code), (.body, .contents)] (by decide)
    rw [weight_append, weight_field, weight_scopeOverField]
    exact Node.le_count_labels (by simpa using hle)
  | withStatement =>
    have hle := fields_le hc hplaced [(.object, .code), (.body, .code)] (by decide)
    rw [weight_append, weight_field, weight_scopeOverField]
    exact Node.le_count_labels (by simpa using hle)
  | assignedPattern => exact Node.le_count_labels (weight_assignedPattern_le hc)
  | functionDeclaration =>
    rw [weight_append, weight_definitionInField]
    exact Node.le_count_labels hfunction
  | namedFunction h name hname =>
    rw [hname] at hfunction
    rw [weight_scope, weight_cons, weight_entry, Entry.mentions]
    exact Node.le_count_labels hfunction
  | function => exact Node.le_count_labels (Nat.le_trans (Nat.le_add_left _ _) hfunction)
  | method =>
    rw [weight_append, weight_append, weight_named]
    exact Node.le_count_labels (weight_method_le hc hplaced label.span)
  | classDeclaration =>
    have hle := class_le hc hplaced
    rw [weight_append, weight_definitionInField, Part.classScope, weight_cons, weight_named,
      weight_scope, List.nil_append, weight_named]
    exact Node.le_count_labels (by omega)
  | classExpression =>
    have hle := class_le hc hplaced
    rw [Part.classScope, weight_cons, weight_named, weight_scope, weight_append,
      weight_definitionInField, weight_named]
    exact Node.le_count_labels hle
  | classField =>
    have hle := decorated_le hc hplaced [(.property, .code), (.value, .code)] (by decide)
      (by decide)
    have hkey := weight_computedKey x children .property
    rw [weight_append, weight_append, weight_named, weight_scopeOverField]
    simp only [fieldCount_cons, fieldCount_nil] at hle
    exact Node.le_count_labels (by omega)
  | importStatement =>
    rw [weight_eachMentions x children fun _ => rfl]
    exact Node.le_count_labels (importedNames_le x children)
  | reexport =>
    have hle := decorated_le hc hplaced [(.declaration, .code), (.value, .code)] (by decide)
      (by decide)
    rw [weight_cons, weight_named, weight_cons, weight_field, weight_field]
    exact Node.le_count_labels (by simpa using hle)
  | exportStatement =>
    have hle := export_le hc hplaced
    rw [weight_append, weight_cons, weight_named, weight_cons, weight_field, weight_field,
      weight_eachMentions x children fun _ => rfl]
    exact Node.le_count_labels hle

/-- The names of a pattern and the code inside it lie at or below it. -/
theorem weight_patternPlan_le (label : Label) (u : Bool) :
    ((Pattern.names u (.node label children)).map Prod.fst).count x +
        weight x children (patternPlan label children) ≤
      (Node.node label children).labels.count x := by
  have hform := patternPlan_form label children
  generalize patternPlan label children = parts at hform
  cases hform with
  | name h =>
    rw [Pattern.names_of_name u h, Node.count_labels]
    exact Nat.le_add_right _ _
  | comment h =>
    rw [Pattern.names_of_other u (by rw [h]; rfl) (by rw [h]; rfl) (by simp [h])
      (by rw [h]; rfl)]
    exact Nat.zero_le _
  | list h =>
    rw [Pattern.names_of_list u h, weight_named]
    exact Node.le_count_labels (patterns_le hc u)
  | pair h =>
    have hkey := weight_computedKey x children .key
    have hle := ((Share.field hc .key .code).add (Share.patternIn hc u .value)
      (Share.apart hplaced (by decide))).le
    rw [Pattern.names_of_pair u h, weight_append, weight_field]
    exact Node.le_count_labels (by omega)
  | default h =>
    have hle := ((Share.patternIn hc true .left).add (Share.field hc .right .code)
      (Share.apart hplaced (by decide))).le
    rw [Pattern.names_of_default u h, weight_cons, weight_field, weight_field]
    exact Node.le_count_labels (by omega)
  | code hname hlist hpair hdefault =>
    rw [Pattern.names_of_other u hname hlist hpair hdefault, List.map_nil, List.count_nil,
      Nat.zero_add]
    exact weight_codePlan_le hc hplaced label

/-- What a pattern that declares names mentions lies at or below it. -/
theorem weight_bindingPlan_le (kind : DefinitionKind) (init : Bool) (label : Label) :
    weight x children (bindingPlan kind init label children) ≤
      (Node.node label children).labels.count x := by
  have hle := weight_patternPlan_le hc hplaced label false
  rw [bindingPlan, weight_append, weight_entries, mentionCount, mentionsAll_declarations]
  exact hle

/-- What a node mentions lies at or below it, whatever its role. -/
theorem weight_plan_le (role : Role) (label : Label) :
    weight x children (plan role label children) ≤ (Node.node label children).labels.count x := by
  have hnamed : ∀ role, weight x children [.named role] ≤
      (Node.node label children).labels.count x :=
    fun role => Node.le_count_labels (weight_named_le hc role)
  have hcode := weight_codePlan_le hc hplaced label
  cases role with
  | code => exact hcode
  | contents => exact hnamed .code
  | parameters => exact hnamed .parameter
  | pattern =>
    exact Nat.le_trans (Nat.le_add_left _ _) (weight_patternPlan_le hc hplaced label false)
  | binding kind init => exact weight_bindingPlan_le hc hplaced kind init label
  | target =>
    have hform := targetPlan_form label children
    generalize plan .target label children = parts at hform
    cases hform with
    | name =>
      rw [weight_entry, Node.count_labels]
      exact Nat.le_add_right _ _
    | parenthesized => exact hnamed .target
    | pattern => exact Node.le_count_labels (weight_assignedPattern_le hc)
    | code => exact hcode
  | updated =>
    have hform := updatedPlan_form label children
    generalize plan .updated label children = parts at hform
    cases hform with
    | name =>
      rw [weight_entry, Node.count_labels]
      exact Nat.le_add_right _ _
    | parenthesized => exact hnamed .updated
    | code => exact hcode
  | declarator keyword =>
    rw [plan]
    split
    · exact Node.le_count_labels
        (weight_fields_le hc hplaced [(.name, _), (.value, _)] (by simp))
    · exact Nat.zero_le _
  | parameter =>
    rw [plan]
    split
    · exact Nat.zero_le _
    · exact weight_bindingPlan_le hc hplaced .parameter false label
  | decorator | classPart =>
    rw [plan]
    split
    · exact hnamed .code
    · exact Nat.zero_le _
  | tagPart name =>
    rw [plan]
    split
    · exact Nat.zero_le _
    · exact hcode

end Plans

/-! ### Trees -/

mutual

/-- **What a node mentions lies at or below it, once**, in a tree whose nodes stand
in one field at most. -/
theorem covers (x : Label) : ∀ node : Node, (∀ l ∈ node.labels, l.Placed) → Covers x node
  | .node label children, hplaced => by
      have hchildren : ∀ l ∈ Node.labelsAll children, l.Placed :=
        fun l hl => hplaced l (List.mem_cons_of_mem _ hl)
      have hc := coversAll x children hchildren
      have hown : ∀ c ∈ children, c.label.Placed := fun c hmem =>
        hchildren _ (Node.labels_subset_labelsAll hmem _ c.label_mem)
      constructor
      · intro role
        rw [outline_node]
        exact weight_plan_le hc hown role label
      · rw [outline_node, plan]
        split
        · exact weight_named_le hc .code
        · exact Nat.zero_le _
      · intro u
        rw [outline_node]
        exact weight_patternPlan_le hc hown label u

theorem coversAll (x : Label) : ∀ nodes : List Node, (∀ l ∈ Node.labelsAll nodes, l.Placed) →
    ∀ c ∈ nodes, Covers x c
  | [], _, _, hmem => absurd hmem List.not_mem_nil
  | d :: rest, hplaced, c, hmem => by
      rw [Node.labelsAll] at hplaced
      rcases List.mem_cons.mp hmem with hfirst | hmem
      · rw [hfirst]
        exact covers x d fun l hl => hplaced l (List.mem_append_left _ hl)
      · exact coversAll x rest (fun l hl => hplaced l (List.mem_append_right _ hl)) c hmem

end

/-- **No node is mentioned twice.** -/
theorem mentions_subperm {node : Node} (hplaced : ∀ l ∈ node.labels, l.Placed) (role : Role) :
    (mentionsAll (node.outline role)).Subperm node.labels :=
  List.subperm_ext_iff.mpr fun x _ => (covers x node hplaced).role role

/-- Nodes of a tree are told apart by their ids, and none stands in two fields. -/
structure Syntax.Node.Placed (root : Node) : Prop where
  distinct : (root.labels.map (·.id)).Nodup
  placed : ∀ l ∈ root.labels, l.Placed

/-- **A program mentions no node twice.** -/
theorem Syntax.Program.mentions_nodup (program : Program) (hroot : program.root.Placed) :
    (program.mentions.map (·.id)).Nodup := by
  refine (program.mentions_perm.map _).nodup_iff.mpr ?_
  rw [program.mentionsAll_outline, List.map_map]
  obtain ⟨found, hperm, hsub⟩ := mentions_subperm hroot.placed .contents
  refine (hperm.map _).nodup_iff.mp ?_
  exact hroot.distinct.sublist (hsub.map _)

end ScopeLint
