import ScopeLint.Proofs.Outline.PartMentions
import ScopeLint.Proofs.Outline.Slots
import ScopeLint.Proofs.Outline.UsePlaces

/-! # What constructs meet

Each construct of the language has its own plan.  In a tree of the promised shape a plan
meets every child that is code with a use below it (`codePlan_meets`): some part reads the
child, in a role that it plays (`Role.Fits`).  The own name of a function or a class is
mentioned instead.  A part of a pattern is read for the code inside it, next to the names of
the whole.
-/

namespace ScopeLint

open Syntax

/-- **The nodes that play a role** in a tree of the promised shape. -/
def Role.Fits (role : Role) (label : Label) : Prop :=
  match role with
  | .code | .target | .updated => label.kind.IsCode
  | .contents => label.kind = .program ∨ label.kind = .statementBlock ∨ label.kind = .switchBody
  | .binding _ _ | .parameter | .pattern => label.kind ≠ .parameterList
  | .declarator _ => label.kind = .variableDeclarator
  | .parameters => label.kind = .parameterList
  | .decorator => label.kind = .decorator
  | .classPart => label.kind = .classHeritage ∨ label.kind = .classBody
  | .tagPart name => some label.id ≠ name ∧ label.kind.IsCode

/-- Whether a role is played by all code. -/
def Role.isPlain : Role → Bool
  | .code | .target | .updated | .binding _ _ => true
  | _ => false

theorem Role.fits_of_isPlain {role : Role} (hplain : role.isPlain = true) {label : Label}
    (hcode : label.kind.IsCode) : role.Fits label := by
  cases role with
  | code | target | updated => exact hcode
  | binding => exact hcode.parameterList
  | _ => cases hplain

theorem Role.ne_pattern_of_isPlain {role : Role} (hplain : role.isPlain = true) :
    role ≠ .pattern := by
  rintro rfl
  cases hplain

/-! ### Parts of plans -/

namespace Part

/-- Some part of a plan mentions a node. -/
def Say (children : List Node) (parts : List Part) (l : Label) : Prop :=
  ∃ part ∈ parts, l ∈ part.mentions children

/-- **Some part of a plan reads a child**, in a role. -/
inductive Reads (children : List Node) (c : Node) (role : Role) : List Part → Prop
  | named {parts : List Part} (hpart : .named role ∈ parts) (hmem : c ∈ children)
      (hnamed : c.label.named = true) : Reads children c role parts
  | laterNamed {parts : List Part} (hpart : .laterNamed role ∈ parts)
      (hlater : c ∈ (children.filter (·.label.named)).tail) : Reads children c role parts
  | field {parts : List Part} {f : Field} (hpart : .field f role ∈ parts)
      (hfield : Node.childInField? f children = some c) : Reads children c role parts
  | scope {parts inner : List Part} {kind : ScopeKind} {span : Span}
      (hpart : .scope kind span inner ∈ parts) (h : Reads children c role inner) :
      Reads children c role parts

/-- **A plan meets a child**, whatever is used below it. -/
inductive Meets (children : List Node) (c : Node) (parts : List Part) : Prop
  /-- The plan reads the child, in a role that the child plays. -/
  | child {role : Role} (hfits : role.Fits c.label) (hrole : role ≠ .pattern)
      (hreads : Reads children c role parts)
  /-- The child is a name, and mentioned. -/
  | name (hname : c.label.kind.isName = true) (hsay : Say children parts c.label)
  /-- The child is a part of a pattern.  The plan reads the code inside it and mentions the
  names in it. -/
  | pattern (hfits : Role.pattern.Fits c.label) (hreads : Reads children c .pattern parts)
      (hnames : ∀ u, ∀ l ∈ (Pattern.names u c).map Prod.fst, Say children parts l)

variable {children : List Node} {c : Node} {parts qs : List Part}

theorem Reads.mono {role : Role} (h : Reads children c role parts) (hsub : parts ⊆ qs) :
    Reads children c role qs := by
  cases h with
  | named hpart hmem hnamed => exact .named (hsub hpart) hmem hnamed
  | laterNamed hpart hlater => exact .laterNamed (hsub hpart) hlater
  | field hpart hfield => exact .field (hsub hpart) hfield
  | scope hpart h => exact .scope (hsub hpart) h

/-- What a child mentions in the role in which it is read. -/
theorem Reads.say {role : Role} {l : Label} (h : Reads children c role parts)
    (hl : l ∈ mentionsAll (c.outline role)) : Say children parts l := by
  induction h with
  | named hpart hmem hnamed => exact ⟨_, hpart, mem_mentions_named.mpr ⟨c, hmem, hnamed, hl⟩⟩
  | laterNamed hpart hlater => exact ⟨_, hpart, mem_mentions_laterNamed.mpr ⟨c, hlater, hl⟩⟩
  | field hpart hfield => exact ⟨_, hpart, mem_mentions_field.mpr ⟨c, hfield, hl⟩⟩
  | scope hpart _ ih => exact ⟨_, hpart, mem_mentions_scope.mpr ih⟩

theorem Say.mono {l : Label} (h : Say children parts l) (hsub : parts ⊆ qs) :
    Say children qs l := by
  obtain ⟨part, hpart, hl⟩ := h
  exact ⟨part, hsub hpart, hl⟩

namespace Meets

theorem mono (h : Meets children c parts) (hsub : parts ⊆ qs) : Meets children c qs := by
  cases h with
  | child hfits hrole hreads => exact .child hfits hrole (hreads.mono hsub)
  | name hname hsay => exact .name hname (hsay.mono hsub)
  | pattern hfits hreads hnames =>
    exact .pattern hfits (hreads.mono hsub) fun u l hl => (hnames u l hl).mono hsub

theorem append_left (h : Meets children c parts) : Meets children c (parts ++ qs) :=
  h.mono (List.subset_append_left ..)

theorem append_right (h : Meets children c qs) : Meets children c (parts ++ qs) :=
  h.mono (List.subset_append_right ..)

theorem tail {part : Part} (h : Meets children c parts) : Meets children c (part :: parts) :=
  h.mono (List.subset_cons_self ..)

theorem scope {kind : ScopeKind} {span : Span} (h : Meets children c parts) :
    Meets children c [.scope kind span parts] := by
  have hmem := List.mem_singleton_self (Part.scope kind span parts)
  have hsay : ∀ {l}, Say children parts l → Say children [.scope kind span parts] l :=
    fun hsay => ⟨_, hmem, mem_mentions_scope.mpr hsay⟩
  cases h with
  | child hfits hrole hreads => exact .child hfits hrole (.scope hmem hreads)
  | name hname hl => exact .name hname (hsay hl)
  | pattern hfits hreads hnames =>
    exact .pattern hfits (.scope hmem hreads) fun u l hl => hsay (hnames u l hl)

end Meets

end Part

/-! ### Constructs -/

section Constructs

variable {label : Label} {children : List Node} {c : Node} {l : Label}
  (hshape : Shape label children) (hmem : c ∈ children)

section Fields

variable {f : Field} (role : Role) (hfield : Node.childInField? f children = some c)
  (hfits : role.Fits c.label) (hrole : role ≠ .pattern)

include hfield hfits hrole

theorem meets_field {parts : List Part} (hpart : .field f role ∈ parts) :
    Part.Meets children c parts :=
  .child hfits hrole (.field hpart hfield)

theorem meets_scopeOverField {kind : ScopeKind} :
    Part.Meets children c (Part.scopeOverField kind f role children) := by
  rw [Part.scopeOverField, Node.inField?_of_child hfield]
  exact (meets_field role hfield hfits hrole (List.mem_singleton_self _)).scope

end Fields

/-- A body, which shares the scope of the construct or has its own. -/
theorem meets_sharedBody (hfield : Node.childInField? .body children = some c)
    (hcode : c.label.kind.IsCode) : Part.Meets children c [Part.sharedBody children] := by
  rw [Part.sharedBody, Node.kindInField?_of_child hfield]
  split
  case isTrue h =>
    have hfits : Role.contents.Fits c.label := Or.inr (Or.inl (Option.some.inj h))
    exact meets_field .contents hfield hfits nofun (List.mem_singleton_self _)
  case isFalse => exact meets_field .code hfield hcode nofun (List.mem_singleton_self _)

include hshape

/-- The own name of a function or a class. -/
theorem meets_definitionInField {kind : DefinitionKind} (htakes : label.kind.takesName = true)
    (hfield : Node.childInField? .name children = some c) :
    Part.Meets children c (Part.definitionInField kind .name children) :=
  .name (hshape.ownName htakes c hfield) (Part.mem_mentions_definitionInField.mpr ⟨c, hfield, rfl⟩)

/-- The parameters of a function, and its body. -/
theorem function_meets (hfunction : label.kind.isFunction = true) {f : Field}
    (hf : f = parametersField children ∨ f = .body)
    (hfield : Node.childInField? f children = some c) :
    Part.Meets children c [Part.function label.span children] := by
  have hmem := Node.mem_of_childInField? hfield
  refine Part.Meets.scope ?_
  by_cases hlist : c.label.kind = .parameterList
  · have hparameters := (hshape.parameterList c hmem hlist).2
    have hsome : (Node.inField? .parameters children).isSome = true := by
      rw [Node.inField?_of_child hparameters]
      rfl
    rw [if_pos hsome]
    exact meets_field .parameters hparameters hlist nofun (List.mem_cons_self ..)
  · rcases hf with rfl | rfl
    · unfold parametersField at hfield
      split at hfield
      · exact absurd (hshape.parameters hfunction c hfield) hlist
      case isFalse hnone =>
        rw [if_neg hnone]
        exact meets_field (.binding .parameter false) hfield hlist nofun (List.mem_cons_self ..)
    · have hpatterns : label.kind.holdsPatterns = false := by
        cases hkind : label.kind <;>
          first | rfl | (rw [hkind] at hfunction; cases hfunction)
      exact (meets_sharedBody hfield ⟨hshape.isPatternPart hpatterns hmem, hlist⟩).tail

variable (huse : Use c l)

include huse

/-- A key, which is computed when there is a use below it. -/
theorem computedKey_meets {f : Field} (hkey : label.kind.keyField? = some f)
    (hfield : Node.childInField? f children = some c) :
    Part.Meets children c (Part.computedKey f children) := by
  rcases hshape.key f hkey c hfield with hcomputed | hnameless
  · have hcode : c.label.kind.IsCode := by
      constructor <;> rw [hcomputed]
      · rfl
      · decide
    have hkind : Node.kindInField? f children = some .computedPropertyName := by
      rw [Node.kindInField?_of_child hfield, hcomputed]
    rw [Part.computedKey, if_pos hkind]
    exact meets_field .code hfield hcode nofun (List.mem_singleton_self _)
  · exact absurd huse hnameless.no_use

include hmem

theorem named_meets (role : Role) (hfits : role.Fits c.label) (hrole : role ≠ .pattern) :
    Part.Meets children c [.named role] :=
  .child hfits hrole (.named (List.mem_singleton_self _) hmem (hshape.named_of_use hmem huse))

/-- A child of a node whose children are code. -/
theorem children_meets {role : Role} (hplain : role.isPlain = true) (hopen : label.kind.IsOpen) :
    Part.Meets children c [.named role] :=
  named_meets hshape hmem huse role
    (Role.fits_of_isPlain hplain (hshape.isCode hopen.patterns hopen.function hmem))
    (Role.ne_pattern_of_isPlain hplain)

/-- A pattern in a list of those that are assigned. -/
theorem assignedPattern_meets (hfunction : label.kind.isFunction = false) :
    Part.Meets children c (Part.assignedPattern children) := by
  have hnamed := hshape.named_of_use hmem huse
  refine .pattern (hshape.ne_parameterList hfunction hmem)
    (.named (List.mem_append_right _ (List.mem_singleton_self _)) hmem hnamed) fun u l hl => ?_
  have hnames := Pattern.mem_fst_namesInNamed.mpr ⟨c, hmem, hnamed, Pattern.mem_fst_names false hl⟩
  rw [← mentionsAll_assignments, ← Part.mem_mentions_entries] at hnames
  exact Part.Say.mono hnames (List.subset_append_left ..)

variable (hbelow : ∀ c ∈ children, c.Shaped)

include hbelow

/-- A field of a node that has code in fields only. -/
theorem fields_meets (fs : List (Field × Role)) (hfields : label.kind.hasCodeFields = true)
    (hread : ∀ f ∈ readFields label.kind children, f ∈ fs.map Prod.fst)
    (hplain : ∀ p ∈ fs, p.2.isPlain = true) :
    Part.Meets children c (fs.map fun p => .field p.1 p.2) := by
  obtain ⟨⟨f, hf, hfield⟩, hcode⟩ := hshape.codeField_of_use hbelow hfields hmem huse
  obtain ⟨p, hp, rfl⟩ := List.mem_map.mp (hread f hf)
  exact meets_field p.2 hfield (Role.fits_of_isPlain (hplain p hp) hcode)
    (Role.ne_pattern_of_isPlain (hplain p hp)) (List.mem_map_of_mem hp)

/-- A declarator. -/
theorem declaration_meets
    (h : label.kind = .variableDeclaration ∨ label.kind = .lexicalDeclaration)
    (keyword : Keyword) : Part.Meets children c [.named (.declarator keyword)] := by
  obtain ⟨hread, hbare⟩ : label.kind.isReadByField = true ∧
      label.kind.takesDecorators = false := by
    rcases h with h | h <;> rw [h] <;> exact ⟨rfl, rfl⟩
  rcases hshape.part_of_use hbelow hread hmem huse with ⟨_, hdecorated⟩ | hpart
  · exact absurd hdecorated (by rw [hbare]; exact Bool.false_ne_true)
  cases hpart with
  | declarator _ hkind => exact named_meets hshape hmem huse (.declarator keyword) hkind nofun
  | field hf =>
    rcases h with h | h <;> rw [h] at hf <;> exact absurd hf List.not_mem_nil
  | ofClass hclass => rcases h with h | h <;> rw [h] at hclass <;> cases hclass
  | looseStatement hkind => rcases h with h | h <;> rw [h] at hkind <;> cases hkind

/-- A child of a function is its name or key, if it has one, a decorator of it, or belongs to
its scope. -/
theorem functionPart_meets (hfunction : label.kind.isFunction = true) :
    (label.kind ≠ .arrowFunction ∧ Node.childInField? .name children = some c) ∨
      (label.kind.takesDecorators = true ∧ c.label.kind = .decorator) ∨
        Part.Meets children c [Part.function label.span children] := by
  have hread : label.kind.isReadByField = true ∧ label.kind.hasPartsByKind = false := by
    cases hkind : label.kind <;>
      first | exact ⟨rfl, rfl⟩ | (rw [hkind] at hfunction; cases hfunction)
  rcases hshape.part_of_use hbelow hread.1 hmem huse with ⟨hdecorator, htakes⟩ | hpart
  · exact Or.inr (Or.inl ⟨htakes, hdecorator⟩)
  obtain ⟨f, hf, hfield⟩ := hpart.exists_field hread.2
  have hfields : (f = .name ∧ label.kind ≠ .arrowFunction) ∨
      f = parametersField children ∨ f = .body := by
    cases hkind : label.kind <;> rw [hkind] at hf hfunction <;>
      first
      | cases hfunction; done
      | simpa [readFields] using hf
  rcases hfields with ⟨rfl, harrow⟩ | hfields
  · exact Or.inl ⟨harrow, hfield⟩
  · exact Or.inr (Or.inr (function_meets hshape hfunction hfields hfield))

/-- A child of a function without decorators. -/
theorem bareFunction_meets (hfunction : label.kind.isFunction = true)
    (hbare : label.kind.takesDecorators = false) :
    (label.kind ≠ .arrowFunction ∧ Node.childInField? .name children = some c) ∨
      Part.Meets children c [Part.function label.span children] := by
  rcases functionPart_meets hshape hmem huse hbelow hfunction with
    hname | ⟨hdecorated, _⟩ | hmeets
  · exact Or.inl hname
  · exact absurd hdecorated (by rw [hbare]; exact Bool.false_ne_true)
  · exact Or.inr hmeets

theorem functionDeclaration_meets
    (h : label.kind = .functionDeclaration ∨ label.kind = .generatorFunctionDeclaration) :
    Part.Meets children c (Part.definitionInField .functionName .name children ++
      [Part.function label.span children]) := by
  obtain ⟨htakes, hfunction, hbare⟩ : label.kind.takesName = true ∧
      label.kind.isFunction = true ∧ label.kind.takesDecorators = false := by
    rcases h with h | h <;> rw [h] <;> exact ⟨rfl, rfl, rfl⟩
  rcases bareFunction_meets hshape hmem huse hbelow hfunction hbare with ⟨_, hfield⟩ | hmeets
  · exact (meets_definitionInField hshape htakes hfield).append_left
  · exact hmeets.append_right

/-- A function expression that has a name. -/
theorem namedFunction_meets (h : label.kind.isFunctionExpression = true) {name : Label}
    (hname : Node.inField? .name children = some name) :
    Part.Meets children c
      [.entry (.definition name .functionName), Part.function label.span children] := by
  obtain ⟨htakes, hfunction, hbare⟩ := Kind.functionExpression_cases h
  rcases bareFunction_meets hshape hmem huse hbelow hfunction hbare with ⟨_, hfield⟩ | hmeets
  · have hown := Option.some.inj ((Node.inField?_of_child hfield).symm.trans hname)
    exact .name (hshape.ownName htakes c hfield) ⟨_, List.mem_cons_self ..,
      Part.mem_mentions_entry.mpr (List.mem_singleton.mpr hown)⟩
  · exact hmeets.tail

/-- A function that has no name. -/
theorem namelessFunction_meets (h : label.kind = .arrowFunction ∨
    label.kind.isFunctionExpression = true ∧ Node.inField? .name children = none) :
    Part.Meets children c [Part.function label.span children] := by
  obtain ⟨hfunction, hbare⟩ :
      label.kind.isFunction = true ∧ label.kind.takesDecorators = false := by
    rcases h with h | ⟨h, _⟩
    · rw [h]
      exact ⟨rfl, rfl⟩
    · exact (Kind.functionExpression_cases h).2
  rcases bareFunction_meets hshape hmem huse hbelow hfunction hbare with
    ⟨harrow, hfield⟩ | hmeets
  · rcases h with h | ⟨_, hnone⟩
    · exact absurd h harrow
    · rw [Node.inField?_of_child hfield] at hnone
      cases hnone
  · exact hmeets

theorem method_meets (h : label.kind = .methodDefinition) :
    Part.Meets children c ([.named .decorator] ++ Part.computedKey .name children ++
      [Part.function label.span children]) := by
  rcases functionPart_meets hshape hmem huse hbelow (by rw [h]; rfl) with
    ⟨_, hfield⟩ | ⟨_, hdecorator⟩ | hmeets
  · exact (computedKey_meets hshape huse (by rw [h]; rfl) hfield).append_right.append_left
  · exact (named_meets hshape hmem huse .decorator hdecorator nofun).append_left.append_left
  · exact hmeets.append_right

/-- A child of a class is its name, a decorator of it, or its heritage or body. -/
theorem classPart_meets (hclass : label.kind.isClass = true) :
    Node.childInField? .name children = some c ∨
      Part.Meets children c [.named .decorator] ∨ Part.Meets children c [.named .classPart] := by
  obtain ⟨hread, hfields⟩ : label.kind.isReadByField = true ∧
      readFields label.kind children = [.name] := by
    cases hkind : label.kind <;>
      first | exact ⟨rfl, rfl⟩ | (rw [hkind] at hclass; cases hclass)
  rcases hshape.part_of_use hbelow hread hmem huse with ⟨hdecorator, _⟩ | hpart
  · exact Or.inr (Or.inl (named_meets hshape hmem huse .decorator hdecorator nofun))
  cases hpart with
  | field hf hfield =>
    rw [hfields] at hf
    rw [List.mem_singleton.mp hf] at hfield
    exact Or.inl hfield
  | ofClass _ hkind => exact Or.inr (Or.inr (named_meets hshape hmem huse .classPart hkind nofun))
  | declarator h => rcases h with h | h <;> rw [h] at hclass <;> cases hclass
  | looseStatement h =>
    rw [h] at hclass
    cases hclass

/-- A field of a class. -/
theorem classField_meets (h : label.kind = .fieldDefinition) :
    Part.Meets children c ([.named .decorator] ++ Part.computedKey .property children ++
      Part.scopeOverField .classFieldInitializer .value .code children) := by
  rcases hshape.part_of_use hbelow (by rw [h]; rfl) hmem huse with ⟨hdecorator, _⟩ | hpart
  · exact (named_meets hshape hmem huse .decorator hdecorator nofun).append_left.append_left
  obtain ⟨f, hf, hfield⟩ := hpart.exists_field (by rw [h]; rfl)
  rw [h] at hf
  rcases List.mem_pair.mp hf with rfl | rfl
  · exact (computedKey_meets hshape huse (by rw [h]; rfl) hfield).append_right.append_left
  · have hvalue := hshape.isCode (by rw [h]; rfl) (by rw [h]; rfl) hmem
    exact (meets_scopeOverField .code hfield hvalue nofun).append_right

/-- The body of a static block of a class. -/
theorem staticBlock_meets (h : label.kind = .classStaticBlock)
    (hbody : Node.kindInField? .body children = some .statementBlock) :
    Part.Meets children c [.field .body .contents] := by
  rcases hshape.part_of_use hbelow (by rw [h]; rfl) hmem huse with ⟨_, hdecorated⟩ | hpart
  · rw [h] at hdecorated
    cases hdecorated
  cases hpart with
  | field hf hfield =>
    rw [h] at hf
    rw [List.mem_singleton.mp hf] at hfield
    rw [Node.kindInField?_of_child hfield] at hbody
    have hfits : Role.contents.Fits c.label := Or.inr (Or.inl (Option.some.inj hbody))
    exact meets_field .contents hfield hfits nofun (List.mem_singleton_self _)
  | looseStatement _ hloose => exact absurd hbody hloose
  | declarator hkind => rcases hkind with hkind | hkind <;> rw [h] at hkind <;> cases hkind
  | ofClass hclass =>
    rw [h] at hclass
    cases hclass

theorem switch_meets (h : label.kind = .switchStatement) :
    Part.Meets children c
      ([.field .value .code] ++ Part.scopeOverField .switchBody .body .contents children) := by
  obtain ⟨⟨f, hf, hfield⟩, hcode⟩ :=
    hshape.codeField_of_use hbelow (by rw [h]; rfl) hmem huse
  rw [h] at hf
  rcases List.mem_pair.mp hf with rfl | rfl
  · exact meets_field .code hfield hcode nofun (List.mem_cons_self ..)
  · have hbody : Role.contents.Fits c.label := Or.inr (Or.inr (hshape.switchBody h c hfield))
    exact (meets_scopeOverField .contents hfield hbody nofun).append_right

/-- A statement that puts the properties of an object in scope. -/
theorem with_meets (h : label.kind = .withStatement) :
    Part.Meets children c
      ([.field .object .code] ++ Part.scopeOverField .withBody .body .code children) := by
  obtain ⟨⟨f, hf, hfield⟩, hcode⟩ :=
    hshape.codeField_of_use hbelow (by rw [h]; rfl) hmem huse
  rw [h] at hf
  rcases List.mem_pair.mp hf with rfl | rfl
  · exact meets_field .code hfield hcode nofun (List.mem_cons_self ..)
  · exact (meets_scopeOverField .code hfield hcode nofun).append_right

/-- A loop over the items of a value that declares nothing by `var`. -/
theorem forItems_meets (h : label.kind = .forInStatement)
    (hhead : headKeyword? children ≠ some .byVar) {role : Role} (hplain : role.isPlain = true) :
    Part.Meets children c [.field .left role, .field .right .code, .field .body .code] := by
  refine fields_meets hshape hmem huse hbelow [(.left, role), (.right, .code), (.body, .code)]
    (by rw [h]; rfl) ?_ (by simpa [Role.isPlain] using hplain)
  intro f hf
  rw [h, readFields, if_neg hhead] at hf
  exact hf

theorem forVar_meets (h : label.kind = .forInStatement) :
    Part.Meets children c [.field .left (.binding (.declared .byVar) true),
      .field .value .code, .field .right .code, .field .body .code] := by
  refine fields_meets hshape hmem huse hbelow [(.left, _), (.value, _), (.right, _), (.body, _)]
    (by rw [h]; rfl) ?_ (by simp [Role.isPlain])
  intro f hf
  rw [h, readFields] at hf
  split at hf
  · exact hf
  · simp only [List.mem_cons, List.not_mem_nil, or_false] at hf
    rcases hf with rfl | rfl | rfl <;> simp

end Constructs

section Labels

variable {label : Label} {children : List Node} {c : Node} {l : Label}
  (hshape : Shape label children) (hc : HoldsCode label children c) (huse : Use c l)

include hshape hc

/-- Nodes that contribute nothing as code have no children that are code. -/
theorem HoldsCode.not_isSilent : ¬ label.kind.isSilent = true := by
  intro hsilent
  rcases Kind.isSilent_cases hsilent with ⟨hleaf, _⟩ | hkind
  · have hmem := hc.mem
    rw [hshape.leaf hleaf] at hmem
    exact List.not_mem_nil hmem
  · exact hkind.elim hc.kind_ne.1 hc.kind_ne.2.1

include huse

/-- A decorator of an export, or what is exported. -/
theorem export_meets (h : label.kind = .exportStatement) :
    Part.Meets children c
      [.named .decorator, .field .declaration .code, .field .value .code] := by
  have hmem := hc.mem
  have hcode := hshape.isCode (by rw [h]; rfl) (by rw [h]; rfl) hmem
  cases hc with
  | decorator _ _ hkind =>
    exact (named_meets hshape hmem huse .decorator hkind nofun).append_left
  | exported _ hfield =>
    rcases hfield with hfield | hfield
    · exact meets_field .code hfield hcode nofun (by simp)
    · exact meets_field .code hfield hcode nofun (by simp)
  | plain hplain =>
    rw [h] at hplain
    cases hplain
  | ofTag hkind => rcases hkind with hkind | hkind <;> rw [h] at hkind <;> cases hkind
  | attributeValue hkind =>
    rw [h] at hkind
    cases hkind

/-- A child of a tag that is not its name. -/
theorem tag_meets (h : label.kind = .jsxOpeningElement ∨ label.kind = .jsxSelfClosingElement) :
    Part.Meets children c [.named (.tagPart ((Node.inField? .name children).map (·.id)))] := by
  obtain ⟨hpatterns, hfunction⟩ : label.kind.holdsPatterns = false ∧
      label.kind.isFunction = false := by
    rcases h with h | h <;> rw [h] <;> exact ⟨rfl, rfl⟩
  exact named_meets hshape hc.mem huse (.tagPart _)
    ⟨hc.ne_tagName h, hshape.isCode hpatterns hfunction hc.mem⟩ nofun

omit huse in
/-- The value of an attribute of a tag. -/
theorem attribute_meets (h : label.kind = .jsxAttribute) :
    Part.Meets children c [.laterNamed .code] := by
  have hcode : Role.code.Fits c.label :=
    hshape.isCode (by rw [h]; rfl) (by rw [h]; rfl) hc.mem
  exact .child hcode nofun (.laterNamed (List.mem_singleton_self _) (hc.mem_attributeValue h))

end Labels

end ScopeLint
