import ScopeLint.Proofs.Outline.Uses
import ScopeLint.Proofs.Outline.PartMentions

/-! # Only uses are mentioned

In a tree of the promised shape, whatever the outline of a node mentions is a use
below that node (`sound`).  This holds in every role but two: the contents of a
node and the parameters of a function are asked of nodes of certain kinds only
(`Role.Suits`).
-/

namespace ScopeLint

open Syntax

/-- Whether a role says nothing of the kind of the node that plays it. -/
@[simp] def Role.isFree : Role → Bool
  | .contents | .parameters => false
  | _ => true

/-- Whether nodes of a kind may be asked for a role. -/
def Role.Suits (role : Role) (kind : Kind) : Prop :=
  match role with
  | .contents => kind = .program ∨ kind = .statementBlock ∨ kind = .switchBody
  | .parameters => kind = .parameterList
  | _ => True

theorem Role.suits_of_isFree {role : Role} (h : role.isFree = true) (kind : Kind) :
    role.Suits kind := by
  cases role <;> trivial

/-- **What the outline of a node mentions are uses.** -/
structure Sound (node : Node) : Prop where
  outline : ∀ role : Role, role.Suits node.label.kind →
    ∀ l ∈ mentionsAll (node.outline role), Use node l
  names : ∀ u, ∀ l ∈ (Pattern.names u node).map Prod.fst, Use node l

/-- What a part of a plan mentions are uses. -/
def Part.Sound (label : Label) (children : List Node) (part : Part) : Prop :=
  ∀ l ∈ part.mentions children, Use (.node label children) l

/-- A node of the kind of a name is a use of that name. -/
theorem Use.of_kind {node : Node} (h : node.label.kind.isNameNode = true) :
    Use node node.label := by
  cases node
  exact .name h

namespace Part

variable {label : Label} {children : List Node}

@[simp] theorem sound_scope_iff {kind : ScopeKind} {span : Span} {parts : List Part} :
    (Part.scope kind span parts).Sound label children ↔
      ∀ part ∈ parts, part.Sound label children := by
  constructor
  · intro h part hpart l hl
    exact h l (mem_mentions_scope.mpr ⟨part, hpart, hl⟩)
  · intro h l hl
    obtain ⟨part, hpart, hl⟩ := mem_mentions_scope.mp hl
    exact h part hpart l hl

theorem sound_of_scope {kind : ScopeKind} {span : Span} {parts : List Part}
    (h : ∀ part ∈ parts, part.Sound label children) :
    ∀ part ∈ [Part.scope kind span parts], part.Sound label children :=
  List.forall_mem_singleton.mpr (sound_scope_iff.mpr h)

/-- A name that uses itself. -/
theorem self_sound {access : Access} (hname : label.kind.isNameNode = true) :
    ∀ part ∈ [Part.entry (.reference label access false)], part.Sound label children := by
  refine List.forall_mem_singleton.mpr fun l hl => ?_
  rw [mem_mentions_entry] at hl
  rw [List.mem_singleton.mp hl]
  exact .name hname

section Children

variable (hc : ∀ c ∈ children, ScopeLint.Sound c)

include hc

/-- The named children that say something in a free role hold code. -/
theorem named_sound_of {role : Role} (hfree : role.isFree = true)
    (hcode : ∀ c ∈ children, c.label.named = true → ∀ l ∈ mentionsAll (c.outline role),
      HoldsCode label children c) :
    (Part.named role).Sound label children := by
  intro l hl
  obtain ⟨c, hmem, hnamed, hl⟩ := mem_mentions_named.mp hl
  exact .within (hcode c hmem hnamed l hl)
    ((hc c hmem).outline role (Role.suits_of_isFree hfree _) l hl)

theorem field_sound_of {f : Field} {role : Role}
    (hcode : ∀ c, Node.childInField? f children = some c →
      HoldsCode label children c ∧ role.Suits c.label.kind) :
    (Part.field f role).Sound label children := by
  intro l hl
  obtain ⟨c, hfield, hl⟩ := mem_mentions_field.mp hl
  obtain ⟨hholds, hsuits⟩ := hcode c hfield
  exact .within hholds ((hc c (Node.mem_of_childInField? hfield)).outline role hsuits l hl)

variable (hplain : label.kind.holdsLabels = false)

include hplain

theorem named_sound {role : Role} (hfree : role.isFree = true) :
    (Part.named role).Sound label children :=
  named_sound_of hc hfree fun _ hmem _ _ _ => .plain hplain hmem

theorem field_sound {f : Field} {role : Role} (hfree : role.isFree = true) :
    (Part.field f role).Sound label children :=
  field_sound_of hc fun _ hfield =>
    ⟨.plain hplain (Node.mem_of_childInField? hfield), Role.suits_of_isFree hfree _⟩

/-- The parts that read fields only. -/
theorem fields_sound (fs : List (Field × Role)) (hfree : ∀ p ∈ fs, p.2.isFree = true) :
    ∀ part ∈ fs.map fun p => Part.field p.1 p.2, part.Sound label children := by
  intro part hpart
  obtain ⟨p, hp, rfl⟩ := List.mem_map.mp hpart
  exact field_sound hc hplain (hfree p hp)

theorem computedKey_sound (place : Field) :
    ∀ part ∈ computedKey place children, part.Sound label children := by
  intro part hpart l hl
  obtain ⟨c, hfield, _, hl⟩ := mem_mentions_computedKey.mp ⟨part, hpart, hl⟩
  have hmem := Node.mem_of_childInField? hfield
  exact .within (.plain hplain hmem) ((hc c hmem).outline .code trivial l hl)

/-- A block that shares the scope of its construct. -/
theorem block_sound (hbody : Node.kindInField? .body children = some .statementBlock) :
    (Part.field .body .contents).Sound label children := by
  refine field_sound_of hc fun c hfield =>
    ⟨.plain hplain (Node.mem_of_childInField? hfield), Or.inr (Or.inl ?_)⟩
  rw [Node.kindInField?_of_child hfield] at hbody
  exact Option.some.inj hbody

theorem sharedBody_sound : (sharedBody children).Sound label children := by
  unfold sharedBody
  split
  case isTrue hbody => exact block_sound hc hplain hbody
  case isFalse => exact field_sound hc hplain rfl

/-- The decorators, the heritage and the body of a class, next to what is its own. -/
theorem classScope_sound {span : Span} {own : List Part}
    (hown : ∀ part ∈ own, part.Sound label children) :
    ∀ part ∈ classScope span own, part.Sound label children := by
  have hparts : (Part.named .classPart).Sound label children := named_sound hc hplain rfl
  exact List.forall_mem_cons.mpr ⟨named_sound hc hplain rfl, sound_of_scope
    (List.forall_mem_append.mpr ⟨hown, List.forall_mem_singleton.mpr hparts⟩)⟩

end Children

theorem scopeOverField_sound {kind : ScopeKind} {f : Field} {role : Role}
    (h : (Part.field f role).Sound label children) :
    ∀ part ∈ scopeOverField kind f role children, part.Sound label children := by
  intro part hpart l hl
  exact h l (mem_mentions_field.mpr (mem_mentions_scopeOverField.mp ⟨part, hpart, hl⟩))

section Shape

variable (hc : ∀ c ∈ children, ScopeLint.Sound c) (hshape : Shape label children)

include hshape

theorem ownName_use (htakes : label.kind.takesName = true) {c : Node}
    (hfield : Node.childInField? .name children = some c) :
    Use (.node label children) c.label := by
  have hplain : label.kind.holdsLabels = false := by
    cases hkind : label.kind <;> first | rfl | (rw [hkind] at htakes; cases htakes)
  have hname := hshape.ownName htakes c hfield
  exact .within (.plain hplain (Node.mem_of_childInField? hfield))
    (.of_kind (Kind.isNameNode_of_isName hname))

theorem definitionInField_sound {kind : DefinitionKind} (htakes : label.kind.takesName = true) :
    ∀ part ∈ definitionInField kind .name children, part.Sound label children := by
  intro part hpart l hl
  obtain ⟨c, hfield, rfl⟩ := mem_mentions_definitionInField.mp ⟨part, hpart, hl⟩
  exact ownName_use hshape htakes hfield

include hc

theorem function_sound (hfunction : label.kind.isFunction = true) :
    (function label.span children).Sound label children := by
  have hplain : label.kind.holdsLabels = false := by
    cases hkind : label.kind <;> first | rfl | (rw [hkind] at hfunction; cases hfunction)
  have hbody := sharedBody_sound hc hplain
  unfold function
  rw [sound_scope_iff]
  intro part hpart
  rcases List.mem_pair.mp hpart with rfl | rfl
  · split
    · exact field_sound_of hc fun c hfield =>
        ⟨.plain hplain (Node.mem_of_childInField? hfield), hshape.parameters hfunction c hfield⟩
    · exact field_sound hc hplain rfl
  · exact hbody

end Shape

end Part

/-! ### Plans -/

section Plans

variable {label : Label} {children : List Node} (hshape : Shape label children)
  (hc : ∀ c ∈ children, Sound c)

include hc

/-- The names that a pattern assigns and the code inside it. -/
theorem assignedPattern_sound (hplain : label.kind.holdsLabels = false) :
    ∀ part ∈ Part.assignedPattern children, part.Sound label children := by
  intro part hpart
  rcases List.mem_append.mp hpart with hpart | hpart
  · intro l hl
    have hl := Part.mem_mentions_entries.mp ⟨part, hpart, hl⟩
    rw [mentionsAll_assignments] at hl
    obtain ⟨c, hmem, _, hl⟩ := Pattern.mem_fst_namesInNamed.mp hl
    exact .within (.plain hplain hmem) ((hc c hmem).names false l hl)
  · exact List.mem_singleton.mp hpart ▸ Part.named_sound hc hplain rfl

/-- The decorators of a node hold code. -/
theorem decorators_sound
    (hcode : ∀ c ∈ children, c.label.kind = .decorator → HoldsCode label children c) :
    (Part.named .decorator).Sound label children := by
  refine Part.named_sound_of hc rfl fun c hmem _ l hl => hcode c hmem ?_
  obtain ⟨l', cs⟩ := c
  rw [outline_node, plan] at hl
  split at hl
  · assumption
  · exact absurd hl List.not_mem_nil

/-- A tag holds code in all its children but its name. -/
theorem tag_sound (h : label.kind = .jsxOpeningElement ∨ label.kind = .jsxSelfClosingElement) :
    (Part.named (.tagPart ((Node.inField? .name children).map (·.id)))).Sound label children := by
  refine Part.named_sound_of hc rfl fun c hmem _ l hl => .ofTag h hmem ?_
  obtain ⟨l', cs⟩ := c
  rw [outline_node, plan] at hl
  split at hl
  · exact absurd hl List.not_mem_nil
  · assumption

/-- An attribute of a tag holds code in all its children but the first. -/
theorem attribute_sound (h : label.kind = .jsxAttribute) :
    (Part.laterNamed .code).Sound label children := by
  intro l hl
  obtain ⟨c, hlater, hl⟩ := Part.mem_mentions_laterNamed.mp hl
  have hmem := (List.mem_filter.mp (List.mem_of_mem_tail hlater)).1
  exact .within (.attributeValue h hlater) ((hc c hmem).outline .code trivial l hl)

/-- What an export exports and its decorators. -/
theorem exportParts_sound (h : label.kind = .exportStatement) :
    ∀ part ∈ [Part.named .decorator, .field .declaration .code, .field .value .code],
      part.Sound label children := by
  have hdecorators : (Part.named .decorator).Sound label children :=
    decorators_sound hc fun c hmem hkind => .decorator h hmem hkind
  have hdeclaration : (Part.field .declaration .code).Sound label children :=
    Part.field_sound_of hc fun c hfield => ⟨.exported h (Or.inl hfield), trivial⟩
  have hvalue : (Part.field .value .code).Sound label children :=
    Part.field_sound_of hc fun c hfield => ⟨.exported h (Or.inr hfield), trivial⟩
  simpa using ⟨hdecorators, hdeclaration, hvalue⟩

omit hc

/-- Entries that mention one use each. -/
theorem eachMentions_sound {entry : Label → Entry} {names : List Label}
    (hentry : ∀ name, (entry name).mentions = [name])
    (h : ∀ name ∈ names, Use (.node label children) name) :
    ∀ part ∈ names.map fun name => Part.entry (entry name), part.Sound label children := by
  intro part hpart l hl
  obtain ⟨name, hname, rfl⟩ := List.mem_map.mp hpart
  rw [Part.mem_mentions_entry, hentry] at hl
  exact List.mem_singleton.mp hl ▸ h name hname

include hc hshape

/-- **What a statement or an expression mentions are uses.** -/
theorem codePlan_sound : ∀ part ∈ codePlan label children, part.Sound label children := by
  have hfields : ∀ {kind : Kind}, label.kind = kind → kind.holdsLabels = false →
      ∀ fs : List (Field × Role), (∀ p ∈ fs, p.2.isFree = true) →
        ∀ part ∈ fs.map fun p => Part.field p.1 p.2, part.Sound label children :=
    fun hkind h => Part.fields_sound hc (hkind ▸ h)
  have hnamed : ∀ {role : Role}, label.kind.holdsLabels = false → role.isFree = true →
      ∀ part ∈ [Part.named role], part.Sound label children :=
    fun hplain hfree => List.forall_mem_singleton.mpr (Part.named_sound hc hplain hfree)
  have hfunction : label.kind.isFunction = true →
      ∀ part ∈ [Part.function label.span children], part.Sound label children :=
    fun h => List.forall_mem_singleton.mpr (Part.function_sound hc hshape h)
  -- One case for each shape of plan, its parts being read from fields or from children.
  have hform := codePlan_form label children
  generalize codePlan label children = parts at hform
  cases hform with
  | name h => exact Part.self_sound (by rcases h with h | h | h <;> rw [h] <;> rfl)
  | silent => simp
  | declaration h keyword => exact hnamed (by rcases h with h | h <;> rw [h] <;> rfl) rfl
  | functionDeclaration h =>
    have htakes : label.kind.takesName = true := by rcases h with h | h <;> rw [h] <;> rfl
    have hkind : label.kind.isFunction = true := by rcases h with h | h <;> rw [h] <;> rfl
    exact List.forall_mem_append.mpr
      ⟨Part.definitionInField_sound hshape htakes, hfunction hkind⟩
  | namedFunction h name hname =>
    have htakes := (Kind.functionExpression_cases h).1
    obtain ⟨c, hfield, rfl⟩ := Node.exists_child_of_inField? hname
    refine Part.sound_of_scope (List.forall_mem_cons.mpr
      ⟨fun l hl => ?_, hfunction (Kind.functionExpression_cases h).2.1⟩)
    rw [Part.mem_mentions_entry] at hl
    exact List.mem_singleton.mp hl ▸ Part.ownName_use hshape htakes hfield
  | function h =>
    refine hfunction ?_
    rcases h with h | h
    · rw [h]
      rfl
    · exact (Kind.functionExpression_cases h.1).2.1
  | method h =>
    have hplain : label.kind.holdsLabels = false := by rw [h]; rfl
    have hkey := Part.computedKey_sound hc hplain .name
    exact List.forall_mem_append.mpr
      ⟨List.forall_mem_append.mpr ⟨hnamed hplain rfl, hkey⟩, hfunction (by rw [h]; rfl)⟩
  | classDeclaration h =>
    have hplain : label.kind.holdsLabels = false := by rw [h]; rfl
    have htakes : label.kind.takesName = true := by rw [h]; rfl
    exact List.forall_mem_append.mpr ⟨Part.definitionInField_sound hshape htakes,
      Part.classScope_sound hc hplain fun _ hpart => absurd hpart List.not_mem_nil⟩
  | classExpression h =>
    have hplain : label.kind.holdsLabels = false := by rw [h]; rfl
    have htakes : label.kind.takesName = true := by rw [h]; rfl
    exact Part.classScope_sound hc hplain (Part.definitionInField_sound hshape htakes)
  | classField h =>
    have hplain : label.kind.holdsLabels = false := by rw [h]; rfl
    have hkey := Part.computedKey_sound hc hplain .property
    have hvalue : (Part.field .value .code).Sound label children :=
      Part.field_sound hc hplain rfl
    exact List.forall_mem_append.mpr
      ⟨List.forall_mem_append.mpr ⟨hnamed hplain rfl, hkey⟩, Part.scopeOverField_sound hvalue⟩
  | staticBlock h hbody =>
    have hplain : label.kind.holdsLabels = false := by rw [h]; rfl
    exact Part.sound_of_scope (List.forall_mem_singleton.mpr (Part.block_sound hc hplain hbody))
  | looseStaticBlock h => exact Part.sound_of_scope (hnamed (by rw [h]; rfl) rfl)
  | enclosed h => exact Part.sound_of_scope (hnamed (Kind.holdsLabels_of_isOrdinary h) rfl)
  | ordinary h => exact hnamed (Kind.holdsLabels_of_isOrdinary h) rfl
  | forVar h =>
    exact hfields h rfl [(.left, _), (.value, _), (.right, _), (.body, _)] (by simp)
  | forLexical h =>
    exact Part.sound_of_scope (hfields h rfl [(.left, _), (.right, _), (.body, _)] (by simp))
  | forTarget h =>
    exact hfields h rfl [(.left, _), (.right, _), (.body, _)] (by simp)
  | catchClause h =>
    exact Part.sound_of_scope (hfields h rfl [(.parameter, _), (.body, _)] (by simp))
  | assignment h | augmented h =>
    exact hfields h rfl [(.left, _), (.right, _)] (by simp)
  | update h => exact hfields h rfl [(.argument, _)] (by simp)
  | switchStatement h =>
    have hplain : label.kind.holdsLabels = false := by rw [h]; rfl
    have hcontents : (Part.field .body .contents).Sound label children :=
      Part.field_sound_of hc fun c hfield =>
        ⟨.plain hplain (Node.mem_of_childInField? hfield),
          Or.inr (Or.inr (hshape.switchBody h c hfield))⟩
    exact List.forall_mem_append.mpr
      ⟨List.forall_mem_singleton.mpr (Part.field_sound hc hplain rfl),
        Part.scopeOverField_sound hcontents⟩
  | withStatement h =>
    have hplain : label.kind.holdsLabels = false := by rw [h]; rfl
    exact List.forall_mem_append.mpr
      ⟨List.forall_mem_singleton.mpr (Part.field_sound hc hplain rfl),
        Part.scopeOverField_sound (Part.field_sound hc hplain rfl)⟩
  | assignedPattern h =>
    exact assignedPattern_sound hc (by rcases h with h | h <;> rw [h] <;> rfl)
  | importStatement h =>
    exact eachMentions_sound (fun _ => rfl) fun name hname =>
      .imported h (mem_importedNames.mp hname)
  | reexport h => exact exportParts_sound hc h
  | exportStatement h hsource =>
    have hnone : Node.inField? .source children = none := by simpa using hsource
    exact List.forall_mem_append.mpr ⟨exportParts_sound hc h,
      eachMentions_sound (fun _ => rfl) fun name hname =>
        .exported h ((mem_exportedNames hnone).mp hname)⟩
  | tag h => exact List.forall_mem_singleton.mpr (tag_sound hc h)
  | tagAttribute h => exact List.forall_mem_singleton.mpr (attribute_sound hc h)

/-- What the code inside a pattern mentions are uses. -/
theorem patternPlan_sound : ∀ part ∈ patternPlan label children, part.Sound label children := by
  have hform := patternPlan_form label children
  generalize patternPlan label children = parts at hform
  cases hform with
  | name | comment => simp
  | list h =>
    exact List.forall_mem_singleton.mpr
      (Part.named_sound hc (Kind.patternList_cases h).2.1 rfl)
  | pair h =>
    have hplain : label.kind.holdsLabels = false := by rcases h with h | h <;> rw [h] <;> rfl
    exact List.forall_mem_append.mpr ⟨Part.computedKey_sound hc hplain .key,
      List.forall_mem_singleton.mpr (Part.field_sound hc hplain rfl)⟩
  | default h =>
    exact Part.fields_sound hc (Kind.holdsLabels_of_isDefault h)
      [(.left, .pattern), (.right, .code)] (by simp)
  | code => exact codePlan_sound hshape hc

omit hshape in
/-- The names of a pattern are uses. -/
theorem names_sound (u : Bool) : ∀ l ∈ (Pattern.names u (.node label children)).map Prod.fst,
    Use (.node label children) l := by
  have hbelow : ∀ {u c l}, label.kind.holdsLabels = false → c ∈ children →
      l ∈ (Pattern.names u c).map Prod.fst → Use (.node label children) l :=
    fun hplain hmem hl => .within (.plain hplain hmem) ((hc _ hmem).names _ _ hl)
  intro l hl
  have hform := patternPlan_form label children
  generalize patternPlan label children = parts at hform
  cases hform with
  | name h =>
    rw [Pattern.names_of_name u h] at hl
    exact List.mem_singleton.mp hl ▸ .name h
  | comment h =>
    rw [Pattern.names_of_other u (by rw [h]; rfl) (by rw [h]; rfl) (by simp [h])
      (by rw [h]; rfl)] at hl
    exact absurd hl List.not_mem_nil
  | list h =>
    rw [Pattern.names_of_list u h] at hl
    obtain ⟨c, hmem, _, hl⟩ := Pattern.mem_fst_namesInNamed.mp hl
    exact hbelow (Kind.patternList_cases h).2.1 hmem hl
  | pair h =>
    rw [Pattern.names_of_pair u h] at hl
    obtain ⟨c, hfield, hl⟩ := Pattern.mem_fst_namesInField.mp hl
    exact hbelow (by rcases h with h | h <;> rw [h] <;> rfl) (Node.mem_of_childInField? hfield) hl
  | default h =>
    rw [Pattern.names_of_default u h] at hl
    obtain ⟨c, hfield, hl⟩ := Pattern.mem_fst_namesInField.mp hl
    exact hbelow (Kind.holdsLabels_of_isDefault h) (Node.mem_of_childInField? hfield) hl
  | code hname hlist hpair hdefault =>
    rw [Pattern.names_of_other u hname hlist hpair hdefault] at hl
    exact absurd hl List.not_mem_nil

/-- What a pattern that declares names mentions are uses. -/
theorem bindingPlan_sound (kind : DefinitionKind) (init : Bool) :
    ∀ part ∈ bindingPlan kind init label children, part.Sound label children := by
  refine List.forall_mem_append.mpr ⟨fun part hpart l hl => ?_, patternPlan_sound hshape hc⟩
  have hl := Part.mem_mentions_entries.mp ⟨part, hpart, hl⟩
  rw [mentionsAll_declarations] at hl
  exact names_sound hc false l hl

/-- What a node mentions in a role that it may play are uses. -/
theorem plan_sound (role : Role) (hsuits : role.Suits label.kind) :
    ∀ part ∈ plan role label children, part.Sound label children := by
  have hcode := codePlan_sound hshape hc
  have hnamed : ∀ {role : Role}, label.kind.holdsLabels = false → role.isFree = true →
      ∀ part ∈ [Part.named role], part.Sound label children :=
    fun hplain hfree => List.forall_mem_singleton.mpr (Part.named_sound hc hplain hfree)
  cases role with
  | code => exact hcode
  | contents => exact hnamed (by rcases hsuits with h | h | h <;> rw [h] <;> rfl) rfl
  | parameters =>
    have hkind : label.kind = .parameterList := hsuits
    exact hnamed (by rw [hkind]; rfl) rfl
  | pattern => exact patternPlan_sound hshape hc
  | binding kind init => exact bindingPlan_sound hshape hc kind init
  | target =>
    have hform := targetPlan_form label children
    generalize plan .target label children = parts at hform
    cases hform with
    | name h => exact Part.self_sound (by rcases h with h | h <;> rw [h] <;> rfl)
    | parenthesized h => exact hnamed (by rw [h]; rfl) rfl
    | pattern h =>
      exact assignedPattern_sound hc (by rcases h with h | h | h | h <;> rw [h] <;> rfl)
    | code => exact hcode
  | updated =>
    have hform := updatedPlan_form label children
    generalize plan .updated label children = parts at hform
    cases hform with
    | name h => exact Part.self_sound (by rcases h with h | h <;> rw [h] <;> rfl)
    | parenthesized h => exact hnamed (by rw [h]; rfl) rfl
    | code => exact hcode
  | declarator keyword =>
    rw [plan]
    split
    case isTrue h =>
      exact Part.fields_sound hc (by rw [h]; rfl) [(.name, _), (.value, _)] (by simp)
    case isFalse => simp
  | parameter =>
    rw [plan]
    split
    · simp
    · exact bindingPlan_sound hshape hc .parameter false
  | decorator =>
    rw [plan]
    split
    case isTrue h => exact hnamed (by rw [h]; rfl) rfl
    case isFalse => simp
  | classPart =>
    rw [plan]
    split
    case isTrue h => exact hnamed (by rcases h with h | h <;> rw [h] <;> rfl) rfl
    case isFalse => simp
  | tagPart name =>
    rw [plan]
    split
    · simp
    · exact hcode

end Plans

/-! ### Trees -/

/-- **In a tree of the promised shape only uses are mentioned.** -/
theorem sound {node : Node} (hshaped : node.Shaped) : Sound node := by
  induction hshaped with
  | @node label children hshape _ ih =>
    constructor
    · intro role hsuits l hl
      obtain ⟨part, hpart, hl⟩ := mem_mentions_outline.mp hl
      exact plan_sound hshape ih role hsuits part hpart l hl
    · exact names_sound ih

end ScopeLint
