import ScopeLint.Proofs.Outline.Within

/-! # Where an outline declares names

Whatever the tree and the role of a node, its outline writes parameters in the scope
of a function and what a catch clause binds in the scope of the clause; and the scope
of a function's own name holds that name and the scope of the function, and nothing
else (`outline_housed`).  Names that are declared by `var` may be written anywhere,
for they go on to a scope around.
-/

namespace ScopeLint

open Syntax

/-- Whether definitions of a kind may be recorded in scopes of a kind. -/
def DefinitionKind.livesIn (scope : ScopeKind) : DefinitionKind → Bool
  | declared .byVar => scope.isVariableScope
  | parameter => scope == .function
  | catchClause => scope == .catchClause
  | _ => true

/-- Whether definitions of a kind may be written in scopes of a kind. -/
def DefinitionKind.writtenIn (scope : ScopeKind) (kind : DefinitionKind) : Bool :=
  kind.hoists || kind.livesIn scope

@[simp] theorem DefinitionKind.writtenIn_declared (scope : ScopeKind) (keyword : Keyword) :
    (declared keyword).writtenIn scope = true := by
  cases keyword <;> rfl

/-- **An entry is housed** in a scope of a kind: each definition of it is written where
it may be, and the scope of a function's own name is just that. -/
inductive Entry.Housed : ScopeKind → Entry → Prop
  | definition {scope : ScopeKind} (name : Label) {kind : DefinitionKind} :
      kind.writtenIn scope = true → Housed scope (.definition name kind)
  | reference {scope : ScopeKind} (name : Label) (access : Access) (init : Bool) :
      Housed scope (.reference name access init)
  | scope {scope kind : ScopeKind} (span : Span) {entries : List Entry} :
      kind ≠ .functionExpressionName → (∀ e ∈ entries, Housed kind e) →
        Housed scope (.scope kind span entries)
  | namedFunction {scope : ScopeKind} (name : Label) (span extent : Span)
      {entries : List Entry} : (∀ e ∈ entries, Housed .function e) →
        Housed scope (.scope .functionExpressionName span
          [.definition name .functionName, .scope .function extent entries])

/-! ### Patterns -/

theorem Pattern.declarations_housed {scope : ScopeKind} {kind : DefinitionKind}
    (h : kind.writtenIn scope = true) (init : Bool) (names : List (Label × Bool)) :
    ∀ e ∈ declarations kind init names, e.Housed scope := by
  intro e he
  obtain ⟨⟨name, underDefault⟩, _, he⟩ := List.mem_flatMap.mp he
  rcases List.mem_cons.mp he with rfl | he
  · exact .definition name h
  · split at he
    · rw [List.mem_singleton.mp he]
      exact .reference name .write true
    · exact absurd he List.not_mem_nil

theorem Pattern.assignments_housed (scope : ScopeKind) (names : List (Label × Bool)) :
    ∀ e ∈ assignments names, e.Housed scope := by
  intro e he
  obtain ⟨⟨name, underDefault⟩, _, rfl⟩ := List.mem_map.mp he
  exact .reference name .write false

/-! ### Plans -/

/-- Whether what a node declares in a role may be written in scopes of a kind. -/
def Role.writtenIn (scope : ScopeKind) : Role → Bool
  | binding kind _ => kind.writtenIn scope
  | parameters | parameter => DefinitionKind.parameter.writtenIn scope
  | _ => true

/-- A part whose entries, and what the children add to them, are housed. -/
inductive Part.Housed : ScopeKind → Part → Prop
  | entry {scope : ScopeKind} {e : Entry} : e.Housed scope → Housed scope (.entry e)
  | named {scope : ScopeKind} {role : Role} : role.writtenIn scope = true →
      Housed scope (.named role)
  | laterNamed {scope : ScopeKind} {role : Role} : role.writtenIn scope = true →
      Housed scope (.laterNamed role)
  | field {scope : ScopeKind} (field : Field) {role : Role} : role.writtenIn scope = true →
      Housed scope (.field field role)
  | scope {scope kind : ScopeKind} (span : Span) {parts : List Part} :
      kind ≠ .functionExpressionName → (∀ part ∈ parts, Housed kind part) →
        Housed scope (.scope kind span parts)
  | namedFunction {scope : ScopeKind} (name : Label) (span extent : Span)
      {parts : List Part} : (∀ part ∈ parts, Housed .function part) →
        Housed scope (.scope .functionExpressionName span
          [.entry (.definition name .functionName), .scope .function extent parts])

namespace Part

variable {scope : ScopeKind}

@[simp] theorem housed_entry_iff {e : Entry} : (Part.entry e).Housed scope ↔ e.Housed scope :=
  ⟨fun | .entry h => h, .entry⟩

@[simp] theorem housed_named_iff {role : Role} :
    (Part.named role).Housed scope ↔ role.writtenIn scope = true :=
  ⟨fun | .named h => h, .named⟩

@[simp] theorem housed_laterNamed_iff {role : Role} :
    (Part.laterNamed role).Housed scope ↔ role.writtenIn scope = true :=
  ⟨fun | .laterNamed h => h, .laterNamed⟩

@[simp] theorem housed_field_iff {field : Field} {role : Role} :
    (Part.field field role).Housed scope ↔ role.writtenIn scope = true :=
  ⟨fun | .field _ h => h, .field field⟩

@[simp] theorem housed_scope_iff {kind : ScopeKind} (hkind : kind ≠ .functionExpressionName)
    {span : Span} {parts : List Part} :
    (Part.scope kind span parts).Housed scope ↔ ∀ part ∈ parts, part.Housed kind :=
  ⟨fun | .scope _ _ h => h | .namedFunction .. => absurd rfl hkind, .scope span hkind⟩

theorem entries_housed {es : List Entry} (h : ∀ e ∈ es, e.Housed scope) :
    ∀ part ∈ es.map Part.entry, part.Housed scope := by
  intro part hpart
  obtain ⟨e, he, rfl⟩ := List.mem_map.mp hpart
  exact .entry (h e he)

variable (scope) (children : List Node)

theorem definitionInField_housed {kind : DefinitionKind} (h : kind.writtenIn scope = true)
    (field : Field) : ∀ part ∈ definitionInField kind field children, part.Housed scope := by
  unfold definitionInField
  cases Node.inField? field children with
  | none => simp
  | some name => simpa using Entry.Housed.definition name h

theorem computedKey_housed (place : Field) :
    ∀ part ∈ computedKey place children, part.Housed scope := by
  unfold computedKey
  split <;> simp [Role.writtenIn]

theorem function_housed (span : Span) : (function span children).Housed scope := by
  have hparameter : DefinitionKind.parameter.writtenIn .function = true := rfl
  unfold function sharedBody
  split <;> split <;> simp [Role.writtenIn, hparameter]

theorem scopeOverField_housed {kind : ScopeKind} (hkind : kind ≠ .functionExpressionName)
    (field : Field) {role : Role} (hrole : role.writtenIn kind = true) :
    ∀ part ∈ scopeOverField kind field role children, part.Housed scope := by
  unfold scopeOverField
  cases Node.inField? field children <;> simp [hkind, hrole]

theorem assignedPattern_housed : ∀ part ∈ assignedPattern children, part.Housed scope :=
  List.forall_mem_append.mpr
    ⟨entries_housed (Pattern.assignments_housed scope _), by simp [Role.writtenIn]⟩

end Part

section Plans

variable (scope : ScopeKind) (label : Label) (children : List Node)

/-- The plan of a statement or an expression is housed anywhere. -/
theorem codePlan_housed : ∀ part ∈ codePlan label children, part.Housed scope := by
  have hfunction := Part.function_housed scope children label.span
  have hkey := Part.computedKey_housed scope children
  have hform := codePlan_form label children
  generalize codePlan label children = plan at hform
  cases hform with
  | name => simpa using Entry.Housed.reference label .read false
  | functionDeclaration =>
    exact List.forall_mem_append.mpr
      ⟨Part.definitionInField_housed scope children rfl .name, by simpa using hfunction⟩
  | namedFunction h name hname =>
    have hparts := (Part.housed_scope_iff ScopeKind.noConfusion).mp hfunction
    exact List.forall_mem_singleton.mpr (.namedFunction name label.span label.span hparts)
  | function => simpa using hfunction
  | method =>
    refine List.forall_mem_append.mpr
      ⟨List.forall_mem_append.mpr ⟨by simp [Role.writtenIn], hkey _⟩, ?_⟩
    simpa using hfunction
  | classDeclaration =>
    exact List.forall_mem_append.mpr ⟨Part.definitionInField_housed scope children rfl .name,
      by simp [Part.classScope, Role.writtenIn]⟩
  | classExpression =>
    have hname : ∀ part ∈ Part.definitionInField .className .name children,
        part.Housed .classBody := Part.definitionInField_housed .classBody children rfl .name
    have hpart : (Part.named .classPart).Housed .classBody := .named rfl
    have hparts := List.forall_mem_append.mpr ⟨hname, List.forall_mem_singleton.mpr hpart⟩
    simpa [Part.classScope, Role.writtenIn] using hparts
  | classField =>
    refine List.forall_mem_append.mpr
      ⟨List.forall_mem_append.mpr ⟨by simp [Role.writtenIn], hkey _⟩, ?_⟩
    exact Part.scopeOverField_housed scope children ScopeKind.noConfusion .value rfl
  | enclosed h kind hkind => rcases hkind with rfl | rfl <;> simp [Role.writtenIn]
  | catchClause =>
    have hbinding : DefinitionKind.catchClause.writtenIn .catchClause = true := rfl
    simp [Role.writtenIn, hbinding]
  | switchStatement =>
    exact List.forall_mem_append.mpr ⟨by simp [Role.writtenIn],
      Part.scopeOverField_housed scope children ScopeKind.noConfusion .body rfl⟩
  | withStatement =>
    exact List.forall_mem_append.mpr ⟨by simp [Role.writtenIn],
      Part.scopeOverField_housed scope children ScopeKind.noConfusion .body rfl⟩
  | assignedPattern => exact Part.assignedPattern_housed scope children
  | importStatement =>
    intro part hpart
    obtain ⟨name, _, rfl⟩ := List.mem_map.mp hpart
    exact .entry (.definition name rfl)
  | exportStatement =>
    refine List.forall_mem_append.mpr ⟨by simp [Role.writtenIn], fun part hpart => ?_⟩
    obtain ⟨name, _, rfl⟩ := List.mem_map.mp hpart
    exact .entry (.reference name .read false)
  | _ => simp [Role.writtenIn]

theorem patternPlan_housed : ∀ part ∈ patternPlan label children, part.Housed scope := by
  have hform := patternPlan_form label children
  generalize patternPlan label children = plan at hform
  cases hform with
  | pair =>
    exact List.forall_mem_append.mpr
      ⟨Part.computedKey_housed scope children .key, by simp [Role.writtenIn]⟩
  | code => exact codePlan_housed scope label children
  | _ => simp [Role.writtenIn]

variable {scope}

theorem bindingPlan_housed {kind : DefinitionKind} (h : kind.writtenIn scope = true)
    (init : Bool) : ∀ part ∈ bindingPlan kind init label children, part.Housed scope :=
  List.forall_mem_append.mpr
    ⟨Part.entries_housed (Pattern.declarations_housed h init _),
      patternPlan_housed scope label children⟩

/-- The plan of a node is housed where its role may declare names. -/
theorem plan_housed {role : Role} (h : role.writtenIn scope = true) :
    ∀ part ∈ plan role label children, part.Housed scope := by
  have hcode := codePlan_housed scope label children
  cases role with
  | code => exact hcode
  | contents => simp [plan, Role.writtenIn]
  | parameters => exact List.forall_mem_singleton.mpr (.named h)
  | pattern => exact patternPlan_housed scope label children
  | binding kind init => exact bindingPlan_housed label children h init
  | target =>
    have hform := targetPlan_form label children
    generalize plan .target label children = parts at hform
    cases hform with
    | name => simpa using Entry.Housed.reference label .write false
    | parenthesized => simp [Role.writtenIn]
    | pattern => exact Part.assignedPattern_housed scope children
    | code => exact hcode
  | updated =>
    have hform := updatedPlan_form label children
    generalize plan .updated label children = parts at hform
    cases hform with
    | name => simpa using Entry.Housed.reference label .readWrite false
    | parenthesized => simp [Role.writtenIn]
    | code => exact hcode
  | declarator keyword =>
    rw [plan]
    split <;> simp [Role.writtenIn]
  | parameter =>
    rw [plan]
    split
    · simp
    · exact bindingPlan_housed label children h false
  | decorator | classPart =>
    rw [plan]
    split <;> simp [Role.writtenIn]
  | tagPart name =>
    rw [plan]
    split
    · simp
    · exact hcode

end Plans

/-! ### Outlines -/

/-- What lies below a node is housed where its role may declare names. -/
structure Below.Housed (below : Below) : Prop where
  named : ∀ scope role, role.writtenIn scope = true → ∀ e ∈ below.named role, e.Housed scope
  laterNamed : ∀ scope role, role.writtenIn scope = true →
    ∀ e ∈ below.laterNamed role, e.Housed scope
  field : ∀ scope field role, role.writtenIn scope = true →
    ∀ e ∈ below.field field role, e.Housed scope

theorem Part.Housed.entries_housed {below : Below} (hbelow : below.Housed) {scope : ScopeKind}
    {part : Part} (h : part.Housed scope) : ∀ e ∈ part.entries below, e.Housed scope := by
  induction h with
  | entry he => exact List.forall_mem_singleton.mpr he
  | named hrole => exact hbelow.named _ _ hrole
  | laterNamed hrole => exact hbelow.laterNamed _ _ hrole
  | field field hrole => exact hbelow.field _ field _ hrole
  | scope span hkind _ ih =>
    refine List.forall_mem_singleton.mpr (.scope span hkind fun e he => ?_)
    obtain ⟨part, hpart, he⟩ := Part.mem_entriesAll.mp he
    exact ih part hpart e he
  | namedFunction name span extent _ ih =>
    refine List.forall_mem_singleton.mpr (.namedFunction name span extent fun e he => ?_)
    obtain ⟨part, hpart, he⟩ := Part.mem_entriesAll.mp he
    exact ih part hpart e he

mutual

/-- **The outline of a node is housed** where its role may declare names. -/
theorem outline_housed {scope : ScopeKind} {role : Role} (h : role.writtenIn scope = true) :
    ∀ node : Node, ∀ e ∈ node.outline role, e.Housed scope
  | .node label children, e, he => by
      have hchild : ∀ {scope : ScopeKind} {role : Role}, role.writtenIn scope = true →
          ∀ {e : Entry}, (∃ c ∈ children, e ∈ c.outline role) → e.Housed scope := by
        rintro scope role h e ⟨c, hc, he⟩
        exact outlines_housed children c hc h e he
      have hbelow : (Below.ofChildren children).Housed :=
        ⟨fun _ _ h _ he => hchild h (exists_of_mem_outlineNamed he),
          fun _ _ h _ he => hchild h (exists_of_mem_outlineLater he),
          fun _ _ _ h _ he => hchild h (exists_of_mem_outlineField he)⟩
      rw [outline_node] at he
      obtain ⟨part, hpart, he⟩ := Part.mem_entriesAll.mp he
      exact (plan_housed label children h part hpart).entries_housed hbelow e he

theorem outlines_housed : ∀ nodes : List Node, ∀ c ∈ nodes, ∀ {scope : ScopeKind} {role : Role},
    role.writtenIn scope = true → ∀ e ∈ c.outline role, e.Housed scope
  | [], _, hc, _, _, _, _, _ => absurd hc List.not_mem_nil
  | child :: rest, c, hc, _, _, h, e, he => by
      rcases List.mem_cons.mp hc with hfirst | hc
      · rw [hfirst] at he
        exact outline_housed h child e he
      · exact outlines_housed rest c hc h e he

end

end ScopeLint
