import ScopeLint.Proofs.Outline.Completeness
import ScopeLint.Proofs.Outline.OneValue
import ScopeLint.Proofs.Outline.Within

/-! # Every declaration is met

What a tree of the promised shape declares is declared in its outline (`declares_occurs`).
A name that a node declares is used below the node, so the walk comes by: on the way down
each plan meets the child that holds the node (`plan_meets`), and what is contributed below
occurs in what is contributed above (`exists_role_of_holdsAsCode`).  At the node itself the
plan reads the pattern in a role that declares its names.
-/

namespace ScopeLint

open Syntax

/-- **An entry occurs among others**, or in a scope among them. -/
inductive Entry.Occurs (e : Entry) : List Entry → Prop
  | here {es : List Entry} (h : e ∈ es) : Occurs e es
  | inside {es inner : List Entry} {kind : ScopeKind} {span : Span}
      (hscope : .scope kind span inner ∈ es) (h : Occurs e inner) : Occurs e es

namespace Entry.Occurs

variable {e : Entry} {es es' : List Entry}

theorem mono (h : Occurs e es) (hsub : es ⊆ es') : Occurs e es' := by
  cases h with
  | here h => exact .here (hsub h)
  | inside hscope h => exact .inside (hsub hscope) h

end Entry.Occurs

/-! ### What is read occurs -/

section Reads

variable {e : Entry} {children : List Node} {c : Node}

theorem occurs_outlineNamed {role : Role} (h : e.Occurs (c.outline role)) : ∀ {nodes : List Node},
    c ∈ nodes → c.label.named = true → e.Occurs (outlineNamed role nodes)
  | child :: rest, hmem, hnamed => by
      rw [outlineNamed]
      rcases List.mem_cons.mp hmem with rfl | hmem
      · rw [if_pos hnamed]
        exact h.mono (List.subset_append_left ..)
      · exact (occurs_outlineNamed h hmem hnamed).mono (List.subset_append_right ..)

theorem occurs_outlineLater {role : Role} (h : e.Occurs (c.outline role)) : ∀ {nodes : List Node},
    c ∈ (nodes.filter (·.label.named)).tail → e.Occurs (outlineLater role nodes)
  | [], hmem => absurd hmem List.not_mem_nil
  | child :: rest, hmem => by
      rw [outlineLater]
      rw [List.filter_cons] at hmem
      split
      · rename_i hnamed
        rw [if_pos hnamed, List.tail_cons] at hmem
        obtain ⟨hmem, hnamed⟩ := List.mem_filter.mp hmem
        exact occurs_outlineNamed h hmem hnamed
      · rename_i hnamed
        rw [if_neg hnamed] at hmem
        exact occurs_outlineLater h hmem

theorem occurs_outlineField {f : Field} {role : Role} (h : e.Occurs (c.outline role)) :
    ∀ {nodes : List Node}, Node.childInField? f nodes = some c →
      e.Occurs (outlineField f role nodes)
  | child :: rest, hfield => by
      rw [outlineField]
      rw [Node.childInField?, List.find?_cons] at hfield
      cases hin : child.label.isIn f with
      | true =>
        rw [hin] at hfield
        rw [if_pos rfl, Option.some.inj hfield]
        exact h
      | false =>
        rw [hin] at hfield
        rw [if_neg Bool.false_ne_true]
        exact occurs_outlineField h hfield

theorem occurs_entriesAll {below : Below} {part : Part} (h : e.Occurs (part.entries below)) :
    ∀ {parts : List Part}, part ∈ parts → e.Occurs (Part.entriesAll below parts)
  | _ :: rest, hmem => by
      rw [Part.entriesAll]
      rcases List.mem_cons.mp hmem with rfl | hmem
      · exact h.mono (List.subset_append_left ..)
      · exact (occurs_entriesAll h hmem).mono (List.subset_append_right ..)

theorem Part.entriesAll_subset {below : Below} {parts qs : List Part} (h : parts ⊆ qs) :
    entriesAll below parts ⊆ entriesAll below qs := by
  intro e he
  obtain ⟨part, hpart, he⟩ := mem_entriesAll.mp he
  exact mem_entriesAll.mpr ⟨part, h hpart, he⟩

/-- **What a child contributes in the role in which a plan reads it occurs in the plan.** -/
theorem Part.Reads.occurs {role : Role} {parts : List Part} (h : Reads children c role parts)
    (he : e.Occurs (c.outline role)) : e.Occurs (entriesAll (.ofChildren children) parts) := by
  induction h with
  | named hpart hmem hnamed => exact occurs_entriesAll (occurs_outlineNamed he hmem hnamed) hpart
  | laterNamed hpart hlater => exact occurs_entriesAll (occurs_outlineLater he hlater) hpart
  | field hpart hfield => exact occurs_entriesAll (occurs_outlineField he hfield) hpart
  | scope hpart _ ih => exact occurs_entriesAll (.inside (List.mem_singleton_self _) ih) hpart

theorem occurs_outline {label : Label} {role role' : Role}
    (h : Part.Reads children c role' (plan role label children)) (he : e.Occurs (c.outline role')) :
    e.Occurs ((Node.node label children).outline role) := by
  rw [outline_node]
  exact h.occurs he

end Reads

/-! ### Declared names are used -/

/-- A name in a pattern is used in it. -/
theorem NameIn.use {pattern : Node} {l : Label} {underDefault : Bool}
    (h : NameIn pattern l underDefault) : Use pattern l := by
  induction h with
  | @name name h =>
    obtain ⟨label, children⟩ := name
    exact .name h
  | @part pattern part l left underDefault hpart _ ih =>
    obtain ⟨label, children⟩ := pattern
    have hplain : label.kind.holdsLabels = false := by
      cases hpart with
      | listed h => exact (Kind.patternList_cases h).2.1
      | value h =>
        rcases h with h | h
        · exact (show label.kind = _ from h) ▸ rfl
        · exact (show label.kind = _ from h) ▸ rfl
      | defaulted h => exact Kind.holdsLabels_of_isDefault h
    exact .within (.plain hplain hpart.mem) ih

theorem Use.of_child {node c : Node} {l : Label} (h : Use c l) (hc : c ∈ node.children)
    (hplain : node.label.kind.holdsLabels = false) : Use node l := by
  obtain ⟨label, children⟩ := node
  exact .within (.plain hplain hc) h

/-- The own name of a function or a class is used in it. -/
theorem Use.of_ownName {node : Node} {l : Label} (hshape : Shape node.label node.children)
    (htakes : node.label.kind.takesName = true)
    (h : Node.inField? .name node.children = some l) : Use node l := by
  obtain ⟨c, hc, rfl⟩ := Node.exists_child_of_inField? h
  have hplain : node.label.kind.holdsLabels = false := by
    cases hkind : node.label.kind <;> first | rfl | (rw [hkind] at htakes; cases htakes)
  have huse : Use c c.label := by
    obtain ⟨label, children⟩ := c
    exact .name (Kind.isNameNode_of_isName (hshape.ownName htakes _ hc))
  exact huse.of_child (Node.mem_of_childInField? hc) hplain

namespace DeclaresAt

variable {node : Node} {l : Label} {kind : DefinitionKind} {valued : Bool}

theorem tellsNames (h : DeclaresAt node l kind valued) : node.label.kind.tellsNames = true := by
  have hfunction : node.label.kind.isFunction = true → node.label.kind.tellsNames = true := by
    intro h
    cases hkind : node.label.kind <;> first | rfl | (rw [hkind] at h; cases h)
  cases h with
  | inPattern hpattern _ =>
    cases hpattern with
    | declarator hkeyword =>
      obtain ⟨label, children⟩ := node
      rw [Node.declarationKeyword?] at hkeyword
      show label.kind.tellsNames = true
      cases hkind : label.kind <;> first | rfl | (rw [hkind] at hkeyword; cases hkeyword)
    | head hkind => rw [hkind]; rfl
    | parameter hkind | onlyParameter hkind => exact hfunction hkind
    | caught hkind => rw [hkind]; rfl
  | ownName hl =>
    cases hl with
    | function hkind => exact hfunction hkind.1
    | ofClass h =>
      cases hkind : node.label.kind <;> first | rfl | (rw [hkind] at h; cases h)
    | imported hkind => rw [hkind]; rfl

/-- **What a node declares is used below it.** -/
theorem use (hshaped : node.Shaped) (h : DeclaresAt node l kind valued) : Use node l := by
  have hshape := hshaped.shape (.self node)
  have hfunction : node.label.kind.isFunction = true → node.label.kind.holdsLabels = false := by
    intro h
    cases hkind : node.label.kind <;> first | rfl | (rw [hkind] at h; cases h)
  cases h with
  | inPattern hpattern hl =>
    have huse := hl.use
    cases hpattern with
    | @declarator declarator _ _ hkeyword hmem _ hkind hpattern =>
      refine (huse.of_child (Node.mem_of_childInField? hpattern) (by rw [hkind]; rfl)).of_child
        hmem ?_
      obtain ⟨label, children⟩ := node
      rw [Node.declarationKeyword?] at hkeyword
      show label.kind.holdsLabels = false
      cases hkind : label.kind <;> first | rfl | (rw [hkind] at hkeyword; cases hkeyword)
    | head hkind _ hpattern | caught hkind hpattern =>
      exact huse.of_child (Node.mem_of_childInField? hpattern) (by rw [hkind]; rfl)
    | parameter hkind hlist hpattern =>
      have hlistKind := hshape.parameters hkind _ hlist
      exact (huse.of_child hpattern (by rw [hlistKind]; rfl)).of_child
        (Node.mem_of_childInField? hlist) (hfunction hkind)
    | onlyParameter hkind _ hpattern =>
      exact huse.of_child (Node.mem_of_childInField? hpattern) (hfunction hkind)
  | ownName hl =>
    cases hl with
    | function hkind hname => exact .of_ownName hshape hkind.2 hname
    | ofClass hkind hname =>
      refine .of_ownName hshape ?_ hname
      cases h : node.label.kind <;> first | rfl | (rw [h] at hkind; cases hkind)
    | imported hkind hl =>
      obtain ⟨label, children⟩ := node
      exact .imported hkind hl

end DeclaresAt

/-! ### At the node that declares -/

section Plans

variable {label : Label} {children : List Node} {c : Node} {l : Label} {kind : DefinitionKind}

/-- A pattern in a role that declares names declares those in it. -/
theorem occurs_binding {pattern : Node} {underDefault : Bool} (hl : NameIn pattern l underDefault)
    (kind : DefinitionKind) (init : Bool) :
    Entry.Occurs (.definition l kind) (pattern.outline (.binding kind init)) := by
  obtain ⟨label, children⟩ := pattern
  rw [outline_node, plan, bindingPlan, Part.entriesAll_append, Part.entriesAll_entries]
  have hmem : Entry.definition l kind ∈
      Pattern.declarations kind init (Pattern.names false (.node label children)) :=
    List.mem_flatMap.mpr ⟨_, hl.mem_names false, List.mem_cons_self ..⟩
  exact .here (List.mem_append_left _ hmem)

/-- The scope of a function stands in the plan of the function. -/
theorem reads_function (hfunction : label.kind.isFunction = true) {role : Role}
    (h : Part.Reads children c role [Part.function label.span children]) :
    Part.Reads children c role (codePlan label children) := by
  have hform := codePlan_form label children
  generalize codePlan label children = parts at hform
  cases hform with
  | functionDeclaration | method => exact h.mono (List.subset_append_right ..)
  | namedFunction => exact .scope (List.mem_singleton_self _) (h.mono (List.subset_cons_self ..))
  | function => exact h
  | name h' => rcases h' with h' | h' | h' <;> rw [h'] at hfunction <;> cases hfunction
  | silent h' | enclosed h' | ordinary h' =>
    cases hkind : label.kind <;> rw [hkind] at h' hfunction <;>
      first
      | cases h'; done
      | cases hfunction
  | declaration h' | assignedPattern h' | tag h' =>
    rcases h' with h' | h' <;> rw [h'] at hfunction <;> cases hfunction
  | _ h' =>
    rw [h'] at hfunction
    cases hfunction

/-- A declarator is read in the plan of its declaration, and its pattern declares names. -/
theorem occurs_declarator {declarator pattern : Node} {keyword : Keyword} {underDefault : Bool}
    (hkeyword : (Node.node label children).declarationKeyword? = some keyword)
    (hmem : declarator ∈ children) (hnamed : declarator.label.named = true)
    (hkind : declarator.label.kind = .variableDeclarator)
    (hpattern : Node.childInField? .name declarator.children = some pattern)
    (hl : NameIn pattern l underDefault) :
    Entry.Occurs (.definition l (.declared keyword))
      (Part.entriesAll (.ofChildren children) (codePlan label children)) := by
  have hplan : codePlan label children = [.named (.declarator keyword)] := by
    rw [Node.declarationKeyword?] at hkeyword
    rw [codePlan]
    cases hkind : label.kind <;> rw [hkind] at hkeyword <;> cases hkeyword <;> rfl
  obtain ⟨label', children'⟩ := declarator
  have hreads : Part.Reads children' pattern
      (.binding (.declared keyword) (Node.inField? .value children').isSome)
      (plan (.declarator keyword) label' children') := by
    rw [plan, if_pos (show label'.kind = _ from hkind)]
    exact .field (List.mem_cons_self ..) hpattern
  rw [hplan]
  refine (Part.Reads.named (List.mem_singleton_self _) hmem hnamed).occurs ?_
  exact occurs_outline hreads (occurs_binding hl _ _)

/-- The pattern in the head of a loop is read, with a scope around it unless by `var`. -/
theorem reads_head {pattern : Node} {keyword : Keyword} (hkind : label.kind = .forInStatement)
    (hkeyword : headKeyword? children = some keyword)
    (hpattern : Node.childInField? .left children = some pattern) :
    Part.Reads children pattern (.binding (.declared keyword) true) (codePlan label children) := by
  rw [codePlan, hkind]
  simp only [hkeyword]
  cases keyword with
  | byVar => exact .field (List.mem_cons_self ..) hpattern
  | byLet | byConst =>
    exact .scope (List.mem_singleton_self _) (.field (List.mem_cons_self ..) hpattern)

/-- The list of parameters is read in the scope of the function. -/
theorem reads_parameters {list : Node} (hkind : label.kind.isFunction = true)
    (hlist : Node.childInField? .parameters children = some list) :
    Part.Reads children list .parameters (codePlan label children) := by
  have hsome : (Node.inField? .parameters children).isSome = true := by
    rw [Node.inField?_of_child hlist]
    rfl
  refine reads_function hkind (.scope (List.mem_singleton_self _) ?_)
  rw [if_pos hsome]
  exact .field (List.mem_cons_self ..) hlist

/-- Without a list the only parameter is read there. -/
theorem reads_onlyParameter {pattern : Node} (hkind : label.kind.isFunction = true)
    (hlist : Node.inField? .parameters children = none)
    (hpattern : Node.childInField? .parameter children = some pattern) :
    Part.Reads children pattern (.binding .parameter false) (codePlan label children) := by
  have hnone : (Node.inField? .parameters children).isSome ≠ true := by
    rw [hlist]
    exact Bool.false_ne_true
  refine reads_function hkind (.scope (List.mem_singleton_self _) ?_)
  rw [if_neg hnone]
  exact .field (List.mem_cons_self ..) hpattern

/-- The parameter of a catch clause is read in the scope of the clause. -/
theorem reads_caught {pattern : Node} (hkind : label.kind = .catchClause)
    (hpattern : Node.childInField? .parameter children = some pattern) :
    Part.Reads children pattern (.binding .catchClause false) (codePlan label children) := by
  rw [codePlan, hkind]
  exact .scope (List.mem_singleton_self _) (.field (List.mem_cons_self ..) hpattern)

/-- The patterns of a node that declares names are read in roles that declare them. -/
theorem PatternAt.occurs {pattern : Node} {init underDefault : Bool}
    (h : PatternAt (.node label children) pattern kind init) (hl : NameIn pattern l underDefault) :
    Entry.Occurs (.definition l kind)
      (Part.entriesAll (.ofChildren children) (codePlan label children)) := by
  cases h with
  | declarator hkeyword hmem hnamed hkind hpattern =>
    exact occurs_declarator hkeyword hmem hnamed hkind hpattern hl
  | head hkind hkeyword hpattern =>
    exact (reads_head hkind hkeyword hpattern).occurs (occurs_binding hl _ _)
  | @parameter list _ hkind hlist hpattern hnamed hcode =>
    refine (reads_parameters hkind hlist).occurs ?_
    obtain ⟨label', children'⟩ := list
    refine occurs_outline (.named (List.mem_singleton_self _) hpattern hnamed) ?_
    -- A parameter is a pattern in the role of the list as well, unless it is a comment.
    obtain ⟨label'', children''⟩ := pattern
    have hbinding := occurs_binding hl .parameter false
    rwa [outline_node, plan, if_neg (show label''.kind ≠ _ from hcode), ← plan, ← outline_node]
  | onlyParameter hkind hlist hpattern =>
    exact (reads_onlyParameter hkind hlist hpattern).occurs (occurs_binding hl _ _)
  | caught hkind hpattern =>
    exact (reads_caught hkind hpattern).occurs (occurs_binding hl _ _)

/-- The own name of a function or a class stands in its plan, and the names of an import in
that of the import. -/
theorem OwnName.occurs (h : OwnName (.node label children) l kind) :
    Entry.Occurs (.definition l kind)
      (Part.entriesAll (.ofChildren children) (codePlan label children)) := by
  have hentry : ∀ {parts : List Part}, .entry (.definition l kind) ∈ parts →
      Entry.Occurs (.definition l kind) (Part.entriesAll (.ofChildren children) parts) :=
    fun hmem => occurs_entriesAll (.here (List.mem_singleton_self _)) hmem
  have hscope : ∀ {scope : ScopeKind} {parts inner : List Part},
      .scope scope label.span inner ∈ parts → .entry (.definition l kind) ∈ inner →
        Entry.Occurs (.definition l kind) (Part.entriesAll (.ofChildren children) parts) :=
    fun hmem hinner => occurs_entriesAll (.inside (List.mem_singleton_self _) (hentry hinner)) hmem
  have hfield : Node.inField? .name children = some l →
      .entry (.definition l kind) ∈ Part.definitionInField kind .name children := by
    intro hname
    rw [Part.definitionInField, hname]
    exact List.mem_singleton_self _
  cases h with
  | function hkind hname =>
    obtain ⟨hfunction, htakes⟩ := hkind
    have hname : Node.inField? .name children = some l := hname
    have hfunction : label.kind.isFunction = true := hfunction
    have htakes : label.kind.takesName = true := htakes
    rw [codePlan]
    cases hkind : label.kind <;> rw [hkind] at hfunction htakes <;>
      first
      | cases hfunction; done
      | cases htakes; done
      | exact hentry (List.mem_append_left _ (hfield hname))
      | simp only [hname]
        exact hscope (List.mem_singleton_self _) (List.mem_cons_self ..)
  | ofClass hkind hname =>
    have hkind : label.kind.isClass = true := hkind
    rw [codePlan]
    cases hkind' : label.kind <;> rw [hkind'] at hkind <;>
      first
      | cases hkind; done
      | exact hentry (List.mem_append_left _ (hfield hname))
      | exact hscope (List.mem_cons_of_mem _ (List.mem_singleton_self _))
          (List.mem_append_left _ (hfield hname))
  | imported hkind hl =>
    rw [codePlan, show label.kind = _ from hkind]
    exact hentry (List.mem_map_of_mem (mem_importedNames.mpr hl))

end Plans

/-- **What a node declares is declared in its outline**, in any role that the node plays. -/
theorem DeclaresAt.occurs {node : Node} {l : Label} {kind : DefinitionKind} {valued : Bool}
    (h : DeclaresAt node l kind valued) {role : Role} (hfits : role.Fits node.label) :
    Entry.Occurs (.definition l kind) (node.outline role) := by
  have htells := h.tellsNames
  obtain ⟨label, children⟩ := node
  have hcode : Entry.Occurs (.definition l kind)
      (Part.entriesAll (.ofChildren children) (codePlan label children)) := by
    cases h with
    | inPattern hpattern hl => exact hpattern.occurs hl
    | ownName hl => exact hl.occurs
  rw [outline_node]
  exact hcode.mono (Part.entriesAll_subset (codePlan_subset_plan htells hfits))

/-! ### On the way down -/

/-- What is used in a node that is code is used above it. -/
theorem Syntax.Node.HoldsAsCode.use {root node : Node} {l : Label} (h : root.HoldsAsCode node)
    (huse : Use node l) : Use root l := by
  induction h with
  | self => exact huse
  | child hc _ ih => exact .within hc (ih huse)

theorem Syntax.Node.HoldsAsCode.eq_of_leaf {root node : Node} (h : root.HoldsAsCode node)
    (hshaped : root.Shaped) (hleaf : root.label.kind.isLeaf = true) : node = root := by
  cases h with
  | self => rfl
  | @child label children c _ hc _ =>
    cases hshaped with
    | node hshape _ =>
      have hmem := hc.mem
      rw [hshape.leaf hleaf] at hmem
      exact absurd hmem List.not_mem_nil

/-- **The walk comes by a node that declares or exports names**, in a role that it plays. -/
theorem exists_role_of_holdsAsCode {root node : Node} {l : Label} (hroot : root.HoldsAsCode node)
    (htells : node.label.kind.tellsNames = true) (huse : Use node l) (hshaped : root.Shaped) :
    ∀ {role : Role}, role.Fits root.label → ∃ role' : Role, role'.Fits node.label ∧
      ∀ e : Entry, e.Occurs (node.outline role') → e.Occurs (root.outline role) := by
  induction hroot with
  | self => exact fun {role} hfits => ⟨role, hfits, fun _ he => he⟩
  | @child label children c node hc hdown ih =>
    intro role hfits
    cases hshaped with
    | node hshape hbelow =>
    have hstep : ∀ role' : Role, role'.Fits c.label →
        Part.Reads children c role' (plan role label children) → ∃ role' : Role,
          role'.Fits node.label ∧ ∀ e : Entry, e.Occurs (node.outline role') →
            e.Occurs ((Node.node label children).outline role) := by
      intro role' hfits' hreads
      obtain ⟨deep, hdeep, hoccurs⟩ := ih htells huse (hbelow c hc.mem) hfits'
      exact ⟨deep, hdeep, fun e he => occurs_outline hreads (hoccurs e he)⟩
    rcases plan_meets hshape hbelow hc (hdown.use huse) role hfits with
      ⟨_, _, _, hother, hreads⟩ | hmeets
    · exact hstep .pattern hother hreads
    cases hmeets with
    | child hfits' _ hreads => exact hstep _ hfits' hreads
    | pattern hfits' hreads _ => exact hstep _ hfits' hreads
    | name hname _ =>
      -- A name holds nothing, and declares nothing by itself.
      have hleaf : c.label.kind.isLeaf = true := by
        cases hkind : c.label.kind <;> first | rfl | (rw [hkind] at hname; cases hname)
      rw [hdown.eq_of_leaf (hbelow c hc.mem) hleaf] at htells
      cases hkind : c.label.kind <;> rw [hkind] at hname htells <;>
        first | cases hname; done | cases htells

/-- **What a tree of the promised shape declares is declared in its outline.** -/
theorem declares_occurs {root node : Node} (hshaped : root.Shaped) (hroot : root.HoldsAsCode node)
    {l : Label} {kind : DefinitionKind} {valued : Bool} (h : DeclaresAt node l kind valued)
    {role : Role} (hfits : role.Fits root.label) :
    Entry.Occurs (.definition l kind) (root.outline role) := by
  have hnode := hshaped.down hroot.holds
  obtain ⟨role', hfits', hoccurs⟩ :=
    exists_role_of_holdsAsCode hroot h.tellsNames (h.use hnode) hshaped hfits
  exact hoccurs _ (h.occurs hfits')

end ScopeLint
