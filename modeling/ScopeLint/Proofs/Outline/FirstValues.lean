import ScopeLint.Proofs.Outline.Slots

/-! # First values follow their declarations

In the outline of a node a use by which a declaration gives the first value stands right
behind the definition of the same name (`Entry.Paired`).  And it stands there just when the
tree gives the name a value where it declares it (`Entry.Valued`, `outline_valued`).

A node gets its role from the node around it, so a role tells where the node stands
(`Role.Tells`): a pattern that declares names is one of `PatternAt`, and the role knows
whether the pattern gets a value.  Each plan hands such roles to the children
(`codePlan_placed`).
-/

namespace ScopeLint

open Syntax

/-- **Every first value follows its declaration at once.** -/
inductive Entry.Paired : List Entry → Prop
  | nil : Paired []
  | definition (name : Label) (kind : DefinitionKind) {rest : List Entry} :
      Paired rest → Paired (.definition name kind :: rest)
  | declaration (name : Label) (kind : DefinitionKind) {rest : List Entry} :
      Paired rest → Paired (.definition name kind :: .reference name .write true :: rest)
  | reference (name : Label) (access : Access) {rest : List Entry} :
      Paired rest → Paired (.reference name access false :: rest)
  | scope (kind : ScopeKind) (span : Span) {entries rest : List Entry} :
      Paired entries → Paired rest → Paired (.scope kind span entries :: rest)

/-- **A definition has a first value behind it just when the name gets a value there**, where
`declares` tells which names are declared and whether they get one. -/
inductive Entry.Valued (declares : Label → DefinitionKind → Bool → Prop) : List Entry → Prop
  | nil : Valued declares []
  | definition {name : Label} {kind : DefinitionKind} {rest : List Entry} :
      declares name kind false → Valued declares rest →
        Valued declares (.definition name kind :: rest)
  | declaration {name : Label} {kind : DefinitionKind} {rest : List Entry} :
      declares name kind true → Valued declares rest →
        Valued declares (.definition name kind :: .reference name .write true :: rest)
  | reference (name : Label) (access : Access) {rest : List Entry} :
      Valued declares rest → Valued declares (.reference name access false :: rest)
  | scope (kind : ScopeKind) (span : Span) {entries rest : List Entry} :
      Valued declares entries → Valued declares rest →
        Valued declares (.scope kind span entries :: rest)

namespace Entry.Valued

variable {declares : Label → DefinitionKind → Bool → Prop} {es rest : List Entry}

theorem append (h : Valued declares es) (hrest : Valued declares rest) :
    Valued declares (es ++ rest) := by
  induction h with
  | nil => exact hrest
  | definition hname _ ih => exact .definition hname ih
  | declaration hname _ ih => exact .declaration hname ih
  | reference name access _ ih => exact .reference name access ih
  | scope kind span hin _ _ ih => exact .scope kind span hin ih

theorem paired (h : Valued declares es) : Paired es := by
  induction h with
  | nil => exact .nil
  | @definition name kind _ _ _ ih => exact .definition name kind ih
  | @declaration name kind _ _ _ ih => exact .declaration name kind ih
  | reference name access _ ih => exact .reference name access ih
  | scope kind span _ _ ihin ih => exact .scope kind span ihin ih

end Entry.Valued

theorem Pattern.declarations_valued {declares : Label → DefinitionKind → Bool → Prop}
    {kind : DefinitionKind} {init : Bool} : ∀ {names : List (Label × Bool)},
      (∀ name ∈ names, declares name.1 kind (init || name.2)) →
        Entry.Valued declares (declarations kind init names)
  | [], _ => .nil
  | (name, underDefault) :: rest, hnames => by
      have hname := hnames _ (List.mem_cons_self ..)
      have ih := declarations_valued fun n hn => hnames n (List.mem_cons_of_mem _ hn)
      show Entry.Valued declares ((_ :: _) ++ declarations kind init rest)
      cases h : init || underDefault with
      | true =>
        rw [h] at hname
        exact .declaration hname ih
      | false =>
        rw [h] at hname
        exact .definition hname ih

/-! ### Roles that tell the place -/

/-- **A role tells where a node of a tree stands**, if it is one that declares names. -/
def Role.Tells (root : Node) : Role → Node → Prop
  | .binding kind init, node => ∃ outer, root.Holds outer ∧ PatternAt outer node kind init
  | .declarator keyword, node =>
    ∃ declaration, root.Holds declaration ∧ declaration.declarationKeyword? = some keyword ∧
      node ∈ declaration.children ∧ node.label.named = true
  | .parameters, node =>
    ∃ function, root.Holds function ∧ function.label.kind.isFunction = true ∧
      Node.childInField? .parameters function.children = some node
  | .parameter, node => node.label.kind ≠ .comment →
    ∃ outer, root.Holds outer ∧ PatternAt outer node .parameter false
  | _, _ => True

/-- **A part hands roles to the children that tell their places**, and an entry of its own is a
definition of a name that gets no value, or a use that is no first value. -/
inductive Part.Placed (root : Node) (children : List Node) : Part → Prop
  | definition {name : Label} {kind : DefinitionKind} (h : Declares root name kind false) :
      Placed root children (.entry (.definition name kind))
  | reference (name : Label) (access : Access) :
      Placed root children (.entry (.reference name access false))
  | named {role : Role} (h : ∀ c ∈ children, c.label.named = true → role.Tells root c) :
      Placed root children (.named role)
  | laterNamed {role : Role} (h : ∀ c ∈ children, c.label.named = true → role.Tells root c) :
      Placed root children (.laterNamed role)
  | field {f : Field} {role : Role}
      (h : ∀ c, Node.childInField? f children = some c → role.Tells root c) :
      Placed root children (.field f role)
  | scope (kind : ScopeKind) (span : Span) {parts : List Part}
      (h : ∀ part ∈ parts, Placed root children part) :
      Placed root children (.scope kind span parts)

section Plans

variable {root : Node} {label : Label} {children : List Node}

namespace Part

attribute [simp] Placed.reference

@[simp] theorem placed_named_iff {role : Role} : (Part.named role).Placed root children ↔
    ∀ c ∈ children, c.label.named = true → role.Tells root c :=
  ⟨fun | .named h => h, .named⟩

@[simp] theorem placed_laterNamed_iff {role : Role} :
    (Part.laterNamed role).Placed root children ↔
      ∀ c ∈ children, c.label.named = true → role.Tells root c :=
  ⟨fun | .laterNamed h => h, .laterNamed⟩

@[simp] theorem placed_field_iff {f : Field} {role : Role} :
    (Part.field f role).Placed root children ↔
      ∀ c, Node.childInField? f children = some c → role.Tells root c :=
  ⟨fun | .field h => h, .field⟩

@[simp] theorem placed_scope_iff {kind : ScopeKind} {span : Span} {parts : List Part} :
    (Part.scope kind span parts).Placed root children ↔
      ∀ part ∈ parts, part.Placed root children :=
  ⟨fun | .scope _ _ h => h, .scope kind span⟩

theorem definitionInField_placed (hroot : root.Holds (.node label children))
    (kind : DefinitionKind) (hown : ∀ name, Node.inField? .name children = some name →
      OwnName (.node label children) name kind) :
    ∀ part ∈ definitionInField kind .name children, part.Placed root children := by
  unfold definitionInField
  cases hname : Node.inField? .name children with
  | none => simp
  | some name => simpa using Placed.definition ⟨_, hroot, .ownName (hown name hname)⟩

theorem scopeOverField_placed {kind : ScopeKind} {f : Field} {role : Role}
    (h : ∀ c, Node.childInField? f children = some c → role.Tells root c) :
    ∀ part ∈ scopeOverField kind f role children, part.Placed root children := by
  unfold scopeOverField
  cases Node.inField? f children with
  | none => simp
  | some child => simpa using h

theorem computedKey_placed (place : Field) :
    ∀ part ∈ computedKey place children, part.Placed root children := by
  unfold computedKey
  split <;> simp [Role.Tells]

theorem sharedBody_placed : (sharedBody children).Placed root children := by
  unfold sharedBody
  split <;> simp [Role.Tells]

/-- The parameters of a function stand in a list, or the only one stands alone. -/
theorem function_placed (hroot : root.Holds (.node label children))
    (hkind : label.kind.isFunction = true) (span : Span) :
    (function span children).Placed root children := by
  unfold function
  split
  · have hlist : ∀ c, Node.childInField? .parameters children = some c →
        Role.parameters.Tells root c := fun c hc => ⟨_, hroot, hkind, hc⟩
    simpa [sharedBody_placed] using hlist
  · have hnone : Node.inField? .parameters children = none := Option.not_isSome_iff_eq_none.mp ‹_›
    have honly : ∀ c, Node.childInField? .parameter children = some c →
        (Role.binding .parameter false).Tells root c := fun c hc =>
      ⟨_, hroot, .onlyParameter hkind hnone hc⟩
    simpa [sharedBody_placed] using honly

theorem assignedPattern_placed :
    ∀ part ∈ assignedPattern children, part.Placed root children := by
  intro part hpart
  rcases List.mem_append.mp hpart with hpart | hpart
  · simp only [Pattern.assignments, List.map_map, List.mem_map] at hpart
    obtain ⟨⟨name, _⟩, _, rfl⟩ := hpart
    exact .reference name .write
  · rw [List.mem_singleton.mp hpart]
    exact .named fun _ _ _ => trivial

end Part

/-- The plan of a statement or an expression hands roles to the children that tell their
places. -/
theorem codePlan_placed (hroot : root.Holds (.node label children)) :
    ∀ part ∈ codePlan label children, part.Placed root children := by
  have hname := Part.definitionInField_placed hroot
  have hfunction := fun hkind => Part.function_placed hroot hkind label.span
  have hform := codePlan_form label children
  generalize codePlan label children = plan at hform
  cases hform with
  | declaration _ keyword hkeyword =>
    have htells : ∀ c ∈ children, c.label.named = true → (Role.declarator keyword).Tells root c :=
      fun c hc hnamed => ⟨_, hroot, hkeyword, hc, hnamed⟩
    simpa using htells
  | functionDeclaration h =>
    have hkind : label.kind.isFunction = true ∧ label.kind.takesName = true := by
      rcases h with h | h <;> rw [h] <;> exact ⟨rfl, rfl⟩
    refine List.forall_mem_append.mpr ⟨hname _ fun name hfound => .function hkind hfound, ?_⟩
    simpa using hfunction hkind.1
  | namedFunction h name hfound =>
    have hkind := Kind.functionExpression_cases h
    have hown : Declares root name .functionName false :=
      ⟨_, hroot, .ownName (.function ⟨hkind.2.1, hkind.1⟩ hfound)⟩
    simpa using ⟨Part.Placed.definition hown, hfunction hkind.2.1⟩
  | function h =>
    have hkind : label.kind.isFunction = true := by
      rcases h with h | ⟨h, _⟩
      · rw [h]
        rfl
      · exact (Kind.functionExpression_cases h).2.1
    simpa using hfunction hkind
  | method h =>
    have hkind : label.kind.isFunction = true := by
      rw [h]
      rfl
    refine List.forall_mem_append.mpr ⟨List.forall_mem_append.mpr
      ⟨by simp [Role.Tells], Part.computedKey_placed .name⟩, ?_⟩
    simpa using hfunction hkind
  | classDeclaration h =>
    have hkind : label.kind.isClass = true := by
      rw [h]
      rfl
    exact List.forall_mem_append.mpr ⟨hname _ fun name hfound => .ofClass hkind hfound,
      by simp [Part.classScope, Role.Tells]⟩
  | classExpression h =>
    have hkind : label.kind.isClass = true := by
      rw [h]
      rfl
    have hown := hname .className fun name hfound => .ofClass hkind hfound
    have hparts : ∀ part ∈ [Part.named .classPart], part.Placed root children := by
      simp [Role.Tells]
    have hinside := List.forall_mem_append.mpr ⟨hown, hparts⟩
    simpa [Part.classScope, Role.Tells] using hinside
  | classField =>
    refine List.forall_mem_append.mpr ⟨List.forall_mem_append.mpr
      ⟨by simp [Role.Tells], Part.computedKey_placed .property⟩, ?_⟩
    exact Part.scopeOverField_placed fun _ _ => trivial
  | forVar h hhead =>
    have htells : ∀ c, Node.childInField? .left children = some c →
        (Role.binding (.declared .byVar) true).Tells root c := fun c hc =>
      ⟨_, hroot, .head h hhead hc⟩
    simpa [Role.Tells] using htells
  | forLexical h keyword _ hkeyword =>
    have htells : ∀ c, Node.childInField? .left children = some c →
        (Role.binding (.declared keyword) true).Tells root c := fun c hc =>
      ⟨_, hroot, .head h hkeyword hc⟩
    simpa [Role.Tells] using htells
  | catchClause h =>
    have htells : ∀ c, Node.childInField? .parameter children = some c →
        (Role.binding .catchClause false).Tells root c := fun c hc => ⟨_, hroot, .caught h hc⟩
    simpa [Role.Tells] using htells
  | switchStatement =>
    exact List.forall_mem_append.mpr
      ⟨by simp [Role.Tells], Part.scopeOverField_placed fun _ _ => trivial⟩
  | withStatement =>
    exact List.forall_mem_append.mpr
      ⟨by simp [Role.Tells], Part.scopeOverField_placed fun _ _ => trivial⟩
  | assignedPattern => exact Part.assignedPattern_placed
  | importStatement h =>
    intro part hpart
    obtain ⟨name, hmem, rfl⟩ := List.mem_map.mp hpart
    exact .definition ⟨_, hroot, .ownName (.imported h (mem_importedNames.mp hmem))⟩
  | exportStatement =>
    refine List.forall_mem_append.mpr ⟨by simp [Role.Tells], fun part hpart => ?_⟩
    obtain ⟨name, _, rfl⟩ := List.mem_map.mp hpart
    exact .reference name .read
  | _ => simp [Role.Tells]

/-- The plan of the code inside a pattern hands roles to the children that tell their
places. -/
theorem patternPlan_placed (hroot : root.Holds (.node label children)) :
    ∀ part ∈ patternPlan label children, part.Placed root children := by
  have hform := patternPlan_form label children
  generalize patternPlan label children = plan at hform
  cases hform with
  | pair =>
    exact List.forall_mem_append.mpr ⟨Part.computedKey_placed .key, by simp [Role.Tells]⟩
  | code => exact codePlan_placed hroot
  | _ => simp [Role.Tells]

end Plans

/-! ### Outlines -/

theorem Part.entriesAll_append (below : Below) : ∀ ps qs : List Part,
    entriesAll below (ps ++ qs) = entriesAll below ps ++ entriesAll below qs
  | [], _ => rfl
  | p :: ps, qs => by
      rw [List.cons_append, entriesAll, entriesAll_append below ps qs, entriesAll,
        List.append_assoc]

theorem Part.entriesAll_entries (below : Below) : ∀ es : List Entry,
    entriesAll below (es.map .entry) = es
  | [] => rfl
  | e :: es => by rw [List.map_cons, entriesAll, entriesAll_entries below es]; rfl

/-- What the children of a node contribute in roles that tell their places has first values
where the tree gives values. -/
structure Below.Valued (root : Node) (children : List Node) (below : Below) : Prop where
  named : ∀ role : Role, (∀ c ∈ children, c.label.named = true → role.Tells root c) →
    Entry.Valued (Declares root) (below.named role)
  laterNamed : ∀ role : Role, (∀ c ∈ children, c.label.named = true → role.Tells root c) →
    Entry.Valued (Declares root) (below.laterNamed role)
  field : ∀ (f : Field) (role : Role),
    (∀ c, Node.childInField? f children = some c → role.Tells root c) →
      Entry.Valued (Declares root) (below.field f role)

section Outlines

variable {root : Node} {label : Label} {children : List Node} {below : Below}

theorem Part.entriesAll_valued : ∀ {parts : List Part},
    (∀ part ∈ parts, Entry.Valued (Declares root) (part.entries below)) →
      Entry.Valued (Declares root) (entriesAll below parts)
  | [], _ => .nil
  | part :: _, h =>
    (h part (List.mem_cons_self ..)).append
      (entriesAll_valued fun p hp => h p (List.mem_cons_of_mem _ hp))

theorem Part.Placed.entries_valued (hbelow : below.Valued root children) {part : Part}
    (h : part.Placed root children) : Entry.Valued (Declares root) (part.entries below) := by
  induction h with
  | definition hname => exact .definition hname .nil
  | reference name access => exact .reference name access .nil
  | named htells => exact hbelow.named _ htells
  | laterNamed htells => exact hbelow.laterNamed _ htells
  | field htells => exact hbelow.field _ _ htells
  | scope kind span _ ih => exact .scope kind span (Part.entriesAll_valued ih) .nil

namespace Below.Valued

theorem placed (hbelow : below.Valued root children) {parts : List Part}
    (h : ∀ part ∈ parts, part.Placed root children) :
    Entry.Valued (Declares root) (Part.entriesAll below parts) :=
  Part.entriesAll_valued fun part hpart => (h part hpart).entries_valued hbelow

/-- A pattern's declarations come first, then the code inside it. -/
theorem binding (hbelow : below.Valued root children) (hroot : root.Holds (.node label children))
    {kind : DefinitionKind} {init : Bool}
    (htells : (Role.binding kind init).Tells root (.node label children)) :
    Entry.Valued (Declares root)
      (Part.entriesAll below (bindingPlan kind init label children)) := by
  unfold bindingPlan
  rw [Part.entriesAll_append, Part.entriesAll_entries]
  refine (Pattern.declarations_valued fun name hname => ?_).append
    (hbelow.placed (patternPlan_placed hroot))
  obtain ⟨underDefault, hl, hunder⟩ := Pattern.nameIn_of_mem false _ name hname
  rw [hunder, Bool.false_or]
  obtain ⟨outer, houter, hpattern⟩ := htells
  exact ⟨outer, houter, .inPattern hpattern hl⟩

theorem ofPlan (hbelow : below.Valued root children) (hroot : root.Holds (.node label children))
    {role : Role} (htells : role.Tells root (.node label children)) :
    Entry.Valued (Declares root) (Part.entriesAll below (plan role label children)) := by
  have hcode := hbelow.placed (codePlan_placed hroot)
  have hsingle : ∀ {part : Part}, part.Placed root children →
      Entry.Valued (Declares root) (Part.entriesAll below [part]) :=
    fun hpart => hbelow.placed fun p hp => List.mem_singleton.mp hp ▸ hpart
  cases role with
  | code => exact hcode
  | pattern => exact hbelow.placed (patternPlan_placed hroot)
  | binding kind init => exact hbelow.binding hroot htells
  | contents => exact hsingle (.named fun _ _ _ => trivial)
  | parameters =>
    obtain ⟨function, hfunction, hkind, hlist⟩ := htells
    exact hsingle (.named fun c hc hnamed hcode =>
      ⟨function, hfunction, .parameter hkind hlist hc hnamed hcode⟩)
  | target =>
    have hform := targetPlan_form label children
    generalize plan .target label children = parts at hform
    cases hform with
    | name => exact hsingle (.reference label .write)
    | parenthesized => exact hsingle (.named fun _ _ _ => trivial)
    | pattern => exact hbelow.placed Part.assignedPattern_placed
    | code => exact hcode
  | updated =>
    have hform := updatedPlan_form label children
    generalize plan .updated label children = parts at hform
    cases hform with
    | name => exact hsingle (.reference label .readWrite)
    | parenthesized => exact hsingle (.named fun _ _ _ => trivial)
    | code => exact hcode
  | declarator keyword =>
    obtain ⟨declaration, hdeclaration, hkeyword, hmem, hnamed⟩ := htells
    rw [plan]
    split
    · have hpattern : ∀ c, Node.childInField? .name children = some c →
          (Role.binding (.declared keyword) (Node.inField? .value children).isSome).Tells root c :=
        fun c hc => ⟨_, hdeclaration, .declarator hkeyword hmem hnamed ‹_› hc⟩
      exact hbelow.placed (by simpa [Role.Tells] using hpattern)
    · exact .nil
  | parameter =>
    rw [plan]
    split
    · exact .nil
    · exact hbelow.binding hroot (htells ‹_›)
  | decorator | classPart =>
    rw [plan]
    split
    · exact hsingle (.named fun _ _ _ => trivial)
    · exact .nil
  | tagPart name =>
    rw [plan]
    split
    · exact .nil
    · exact hcode

end Below.Valued

end Outlines

section Outlines

variable {root : Node}

mutual

/-- **The outline of a node of a tree has a first value behind a definition just where the
tree gives the name a value.** -/
theorem outline_valued (role : Role) : ∀ {node : Node}, root.Holds node →
    role.Tells root node → Entry.Valued (Declares root) (node.outline role)
  | .node label children, hroot, htells => by
      have hdown : ∀ c ∈ children, root.Holds c := fun c hc => hroot.down hc
      have hbelow : Below.Valued root children
          ⟨fun r => outlineNamed r children, fun r => outlineLater r children,
            fun f r => outlineField f r children⟩ :=
        ⟨fun _ => outlineNamed_valued hdown, fun _ => outlineLater_valued hdown,
          fun _ _ => outlineField_valued hdown⟩
      rw [Node.outline]
      exact hbelow.ofPlan hroot htells

theorem outlineNamed_valued {role : Role} : ∀ {nodes : List Node}, (∀ c ∈ nodes, root.Holds c) →
    (∀ c ∈ nodes, c.label.named = true → role.Tells root c) →
      Entry.Valued (Declares root) (outlineNamed role nodes)
  | [], _, _ => .nil
  | child :: rest, hroot, htells => by
      have hrest := outlineNamed_valued (fun c hc => hroot c (List.mem_cons_of_mem _ hc))
        fun c hc => htells c (List.mem_cons_of_mem _ hc)
      have hmem : child ∈ child :: rest := List.mem_cons_self ..
      rw [outlineNamed]
      split
      · exact (outline_valued role (hroot child hmem) (htells child hmem ‹_›)).append hrest
      · exact hrest

theorem outlineLater_valued {role : Role} : ∀ {nodes : List Node}, (∀ c ∈ nodes, root.Holds c) →
    (∀ c ∈ nodes, c.label.named = true → role.Tells root c) →
      Entry.Valued (Declares root) (outlineLater role nodes)
  | [], _, _ => .nil
  | child :: rest, hroot, htells => by
      have hroot' : ∀ c ∈ rest, root.Holds c := fun c hc => hroot c (List.mem_cons_of_mem _ hc)
      have htells' : ∀ c ∈ rest, c.label.named = true → role.Tells root c := fun c hc =>
        htells c (List.mem_cons_of_mem _ hc)
      rw [outlineLater]
      split
      · exact outlineNamed_valued hroot' htells'
      · exact outlineLater_valued hroot' htells'

theorem outlineField_valued {f : Field} {role : Role} : ∀ {nodes : List Node},
    (∀ c ∈ nodes, root.Holds c) →
    (∀ c, Node.childInField? f nodes = some c → role.Tells root c) →
      Entry.Valued (Declares root) (outlineField f role nodes)
  | [], _, _ => .nil
  | child :: rest, hroot, htells => by
      rw [outlineField]
      rw [Node.childInField?, List.find?_cons] at htells
      split
      · rename_i hin
        rw [hin] at htells
        exact outline_valued role (hroot child (List.mem_cons_self ..)) (htells child rfl)
      · rename_i hin
        rw [Bool.eq_false_iff.mpr hin] at htells
        exact outlineField_valued (fun c hc => hroot c (List.mem_cons_of_mem _ hc)) htells

end

end Outlines

end ScopeLint
