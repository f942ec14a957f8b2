import ScopeLint.Proofs.Outline.Constructs

/-! # Every use is mentioned

In a tree of the promised shape a plan meets every child that is code with a use below it,
in any role that a node of its kind plays in such a tree (`plan_meets`).  So the outline of a
node mentions every use below it (`complete`).  The names of a pattern and the code inside it
do so together.
-/

namespace ScopeLint

open Syntax

/-- Whether nodes of a kind declare names, or export them. -/
def Syntax.Kind.tellsNames : Kind → Bool
  | .variableDeclaration | .lexicalDeclaration | .forInStatement | .catchClause
  | .importStatement | .exportStatement => true
  | kind => kind.isFunction || kind.isClass

section Plans

variable {label : Label} {children : List Node}

/-! ### Plans that are those of code -/

theorem patternPlan_of_tellsNames (h : label.kind.tellsNames = true) :
    patternPlan label children = codePlan label children := by
  rw [patternPlan]
  cases hkind : label.kind <;> first | rfl | (rw [hkind] at h; cases h)

/-- A node that declares or exports names contributes in any role what it does as code. -/
theorem codePlan_subset_plan (h : label.kind.tellsNames = true) {role : Role}
    (hfits : role.Fits label) : codePlan label children ⊆ plan role label children := by
  have hbinding : ∀ kind init, codePlan label children ⊆ bindingPlan kind init label children := by
    intro kind init
    rw [bindingPlan, patternPlan_of_tellsNames h]
    exact List.subset_append_right ..
  cases role with
  | code => exact List.Subset.refl _
  | binding kind init => exact hbinding kind init
  | pattern => exact (patternPlan_of_tellsNames h).symm ▸ List.Subset.refl _
  | parameter =>
    rw [plan, if_neg (by rintro hkind; rw [hkind] at h; cases h)]
    exact hbinding .parameter false
  | tagPart name =>
    rw [plan, if_neg hfits.1]
    exact List.Subset.refl _
  | target | updated =>
    rw [plan]
    cases hkind : label.kind <;>
      first | exact List.Subset.refl _ | (rw [hkind] at h; cases h)
  | contents | classPart | declarator | parameters | decorator =>
    simp only [Role.Fits] at hfits
    cases hkind : label.kind <;>
      first
      | (rw [hkind] at h; cases h; done)
      | (rw [hkind] at hfits; exact absurd hfits (by decide))

variable {c : Node} {l : Label} (hshape : Shape label children)
  (hbelow : ∀ c ∈ children, c.Shaped) (hc : HoldsCode label children c) (huse : Use c l)

/-- The names of a part of a pattern are names of the pattern. -/
theorem PatternPart.mem_fst_names {pattern part : Node} {left : Bool}
    (hpart : PatternPart pattern part left) {u : Bool}
    (hl : l ∈ (Pattern.names u part).map Prod.fst) (v : Bool) :
    l ∈ (Pattern.names v pattern).map Prod.fst := by
  obtain ⟨name, hname, rfl⟩ := List.mem_map.mp hl
  obtain ⟨_, hin, _⟩ := Pattern.nameIn_of_mem u part name hname
  exact List.mem_map.mpr ⟨_, (NameIn.part hpart hin).mem_names v, rfl⟩

include hshape hbelow hc huse

/-! ### Plans meet what is used -/

/-- **The plan of a statement or an expression meets every child with a use below it.** -/
theorem codePlan_meets (hcode : label.kind.IsCode) :
    Part.Meets children c (codePlan label children) := by
  have hmem := hc.mem
  have hform := codePlan_form label children
  generalize codePlan label children = parts at hform
  cases hform with
  | name h =>
    have hleaf : label.kind.isLeaf = true := by rcases h with h | h | h <;> exact h ▸ rfl
    rw [hshape.leaf hleaf] at hmem
    exact absurd hmem List.not_mem_nil
  | silent h => exact absurd h (hc.not_isSilent hshape)
  | declaration h keyword => exact declaration_meets hshape hmem huse hbelow h keyword
  | functionDeclaration h => exact functionDeclaration_meets hshape hmem huse hbelow h
  | namedFunction h name hname => exact (namedFunction_meets hshape hmem huse hbelow h hname).scope
  | function h => exact namelessFunction_meets hshape hmem huse hbelow h
  | method h => exact method_meets hshape hmem huse hbelow h
  | classDeclaration h =>
    have htakes : label.kind.takesName = true := by rw [h]; rfl
    rcases classPart_meets hshape hmem huse hbelow (by rw [h]; rfl) with hfield | hmeets | hmeets
    · exact (meets_definitionInField hshape htakes hfield).append_left
    · exact hmeets.append_left.append_right
    · exact hmeets.scope.tail.append_right
  | classExpression h =>
    have htakes : label.kind.takesName = true := by rw [h]; rfl
    rcases classPart_meets hshape hmem huse hbelow (by rw [h]; rfl) with hfield | hmeets | hmeets
    · exact (meets_definitionInField hshape htakes hfield).append_left.scope.tail
    · exact hmeets.append_left
    · exact hmeets.append_right.scope.tail
  | classField h => exact classField_meets hshape hmem huse hbelow h
  | staticBlock h hbody => exact (staticBlock_meets hshape hmem huse hbelow h hbody).scope
  | looseStaticBlock h =>
    have hopen : label.kind.IsOpen := by rw [h]; exact ⟨rfl, rfl, rfl, rfl⟩
    exact (children_meets hshape hmem huse rfl hopen).scope
  | enclosed h => exact (children_meets hshape hmem huse rfl (hcode.isOpen h)).scope
  | ordinary h => exact children_meets hshape hmem huse rfl (hcode.isOpen h)
  | forVar h => exact forVar_meets hshape hmem huse hbelow h
  | forLexical h keyword hhead => exact (forItems_meets hshape hmem huse hbelow h hhead rfl).scope
  | forTarget h hhead => exact forItems_meets hshape hmem huse hbelow h hhead rfl
  | catchClause h =>
    exact (fields_meets hshape hmem huse hbelow [(.parameter, _), (.body, _)] (by rw [h]; rfl)
      (by rw [h]; exact fun _ => id) (by simp [Role.isPlain])).scope
  | switchStatement h => exact switch_meets hshape hmem huse hbelow h
  | withStatement h => exact with_meets hshape hmem huse hbelow h
  | assignment h | augmented h =>
    exact fields_meets hshape hmem huse hbelow [(.left, _), (.right, _)]
      (by rw [h]; rfl) (by rw [h]; exact fun _ => id) (by simp [Role.isPlain])
  | update h =>
    exact fields_meets hshape hmem huse hbelow [(.argument, _)]
      (by rw [h]; rfl) (by rw [h]; exact fun _ => id) (by simp [Role.isPlain])
  | assignedPattern h =>
    refine assignedPattern_meets hshape hmem huse ?_
    rcases h with h | h <;> rw [h] <;> rfl
  | importStatement h => exact absurd h hc.kind_ne.2.2
  | reexport h => exact export_meets hshape hc huse h
  | exportStatement h => exact (export_meets hshape hc huse h).append_left
  | tag h => exact tag_meets hshape hc huse h
  | tagAttribute h => exact attribute_meets hshape hc h

/-- **The plan of the code inside a pattern meets every child with a use below it**, or reads
it as a part of the pattern. -/
theorem patternPlan_meets (hlist : label.kind ≠ .parameterList) :
    (∃ left, PatternPart (.node label children) c left ∧ c.label.kind ≠ .parameterList ∧
      Part.Reads children c .pattern (patternPlan label children)) ∨
    Part.Meets children c (patternPlan label children) := by
  have hmem := hc.mem
  have hform := patternPlan_form label children
  generalize patternPlan label children = parts at hform
  cases hform with
  | name h =>
    have hleaf : label.kind.isLeaf = true := by
      cases hkind : label.kind <;> first | rfl | (rw [hkind] at h; cases h)
    rw [hshape.leaf hleaf] at hmem
    exact absurd hmem List.not_mem_nil
  | comment h => exact absurd (by rw [h]; rfl) (hc.not_isSilent hshape)
  | list h =>
    have hnamed := hshape.named_of_use hmem huse
    exact Or.inl ⟨false, .listed h hmem hnamed,
      hshape.ne_parameterList (Kind.patternList_cases h).2.2 hmem,
      .named (List.mem_singleton_self _) hmem hnamed⟩
  | pair h =>
    obtain ⟨hread, hbare, hparts, hfunction, hkey⟩ : label.kind.isReadByField = true ∧
        label.kind.takesDecorators = false ∧ label.kind.hasPartsByKind = false ∧
          label.kind.isFunction = false ∧ label.kind.keyField? = some .key := by
      rcases h with h | h <;> rw [h] <;> exact ⟨rfl, rfl, rfl, rfl, rfl⟩
    obtain ⟨f, hf, hfield⟩ := hshape.field_of_use hbelow hread hbare hparts hmem huse
    have hf : f = .key ∨ f = .value := by
      rcases h with h | h <;> rw [h] at hf <;> exact List.mem_pair.mp hf
    rcases hf with rfl | rfl
    · exact Or.inr (computedKey_meets hshape huse hkey hfield).append_left
    · exact Or.inl ⟨false, .value h hfield, hshape.ne_parameterList hfunction hmem,
        .field (List.mem_append_right _ (List.mem_singleton_self _)) hfield⟩
  | default h =>
    obtain ⟨hread, hbare, hparts, hfunction, hfields⟩ := Kind.default_cases h children
    obtain ⟨f, hf, hfield⟩ := hshape.field_of_use hbelow hread hbare hparts hmem huse
    have hother := hshape.ne_parameterList hfunction hmem
    rw [hfields] at hf
    rcases List.mem_pair.mp hf with rfl | rfl
    · exact Or.inl ⟨true, .defaulted h hfield, hother, .field (List.mem_cons_self ..) hfield⟩
    -- A default value is code, unless the node stands in both fields.
    · by_cases hpart : c.label.kind.isPatternPart = true
      · have hleft := hshape.left_of_patternPart h hmem hpart
        exact Or.inl ⟨true, .defaulted h hleft, hother, .field (List.mem_cons_self ..) hleft⟩
      · exact Or.inr (meets_field .code hfield ⟨Bool.eq_false_of_not_eq_true hpart, hother⟩ nofun
          (List.mem_cons_of_mem _ (List.mem_singleton_self _)))
  | code hname hlist' hpair hdefault =>
    have hpart := Kind.isPatternPart_of_other hname hlist' hpair.1 hdefault
    exact Or.inr (codePlan_meets hshape hbelow hc huse ⟨hpart, hlist⟩)

/-- The plan of a pattern that declares names meets every child with a use below it. -/
theorem bindingPlan_meets (hlist : label.kind ≠ .parameterList) (kind : DefinitionKind)
    (init : Bool) : Part.Meets children c (bindingPlan kind init label children) := by
  rcases patternPlan_meets hshape hbelow hc huse hlist with ⟨left, hpart, hother, hreads⟩ | hmeets
  · refine .pattern hother (hreads.mono (List.subset_append_right ..)) fun u l hl => ?_
    have hnames := hpart.mem_fst_names hl false
    rw [← mentionsAll_declarations kind init, ← Part.mem_mentions_entries] at hnames
    exact Part.Say.mono hnames (List.subset_append_left ..)
  · exact hmeets.append_right

/-- **A plan meets every child with a use below it**, in any role that the node plays.  Of a
pattern the role may be to give the code inside it only. -/
theorem plan_meets (role : Role) (hfits : role.Fits label) :
    (role = .pattern ∧ ∃ left, PatternPart (.node label children) c left ∧
      c.label.kind ≠ .parameterList ∧ Part.Reads children c .pattern (plan role label children)) ∨
    Part.Meets children c (plan role label children) := by
  have hmem := hc.mem
  cases role with
  | pattern =>
    exact (patternPlan_meets hshape hbelow hc huse hfits).imp_left fun hpart => ⟨rfl, hpart⟩
  | code => exact Or.inr (codePlan_meets hshape hbelow hc huse hfits)
  | contents =>
    have hopen : label.kind.IsOpen := by
      rcases hfits with h | h | h <;> rw [h] <;> exact ⟨rfl, rfl, rfl, rfl⟩
    exact Or.inr (children_meets hshape hmem huse rfl hopen)
  | parameters =>
    have hkind : label.kind = .parameterList := hfits
    exact Or.inr (named_meets hshape hmem huse .parameter
      (hshape.ne_parameterList (by rw [hkind]; rfl) hmem) nofun)
  | binding kind init => exact Or.inr (bindingPlan_meets hshape hbelow hc huse hfits kind init)
  | target =>
    have hform := targetPlan_form label children
    generalize plan .target label children = parts at hform
    cases hform with
    | name h =>
      have hleaf : label.kind.isLeaf = true := by rcases h with h | h <;> exact h ▸ rfl
      rw [hshape.leaf hleaf] at hmem
      exact absurd hmem List.not_mem_nil
    | parenthesized h =>
      exact Or.inr (children_meets hshape hmem huse rfl (by rw [h]; exact ⟨rfl, rfl, rfl, rfl⟩))
    | pattern h =>
      refine Or.inr (assignedPattern_meets hshape hmem huse ?_)
      rcases h with h | h | h | h <;> rw [h] <;> rfl
    | code => exact Or.inr (codePlan_meets hshape hbelow hc huse hfits)
  | updated =>
    have hform := updatedPlan_form label children
    generalize plan .updated label children = parts at hform
    cases hform with
    | name h =>
      have hleaf : label.kind.isLeaf = true := by rcases h with h | h <;> exact h ▸ rfl
      rw [hshape.leaf hleaf] at hmem
      exact absurd hmem List.not_mem_nil
    | parenthesized h =>
      exact Or.inr (children_meets hshape hmem huse rfl (by rw [h]; exact ⟨rfl, rfl, rfl, rfl⟩))
    | code => exact Or.inr (codePlan_meets hshape hbelow hc huse hfits)
  | declarator keyword =>
    have hkind : label.kind = .variableDeclarator := hfits
    rw [plan, if_pos hkind]
    exact Or.inr (fields_meets hshape hmem huse hbelow [(.name, _), (.value, _)]
      (by rw [hkind]; rfl) (by rw [hkind]; exact fun _ => id) (by simp [Role.isPlain]))
  | parameter =>
    rw [plan]
    split
    case isTrue h => exact absurd (by rw [h]; rfl) (hc.not_isSilent hshape)
    case isFalse => exact Or.inr (bindingPlan_meets hshape hbelow hc huse hfits .parameter false)
  | decorator =>
    have hkind : label.kind = .decorator := hfits
    rw [plan, if_pos hkind]
    exact Or.inr (children_meets hshape hmem huse rfl (by rw [hkind]; exact ⟨rfl, rfl, rfl, rfl⟩))
  | classPart =>
    have hopen : label.kind.IsOpen := by
      rcases hfits with h | h <;> rw [h] <;> exact ⟨rfl, rfl, rfl, rfl⟩
    have hkind : label.kind = .classHeritage ∨ label.kind = .classBody := hfits
    rw [plan, if_pos hkind]
    exact Or.inr (children_meets hshape hmem huse rfl hopen)
  | tagPart name =>
    have hother : some label.id ≠ name := hfits.1
    rw [plan, if_neg hother]
    exact Or.inr (codePlan_meets hshape hbelow hc huse hfits.2)

end Plans

/-! ### Trees -/

/-- **The outline of a node mentions the uses below it.**  A pattern mentions them
as a name or in the code inside it. -/
structure Complete (node : Node) : Prop where
  outline : ∀ role : Role, role.Fits node.label → role ≠ .pattern →
    ∀ l, Use node l → l ∈ mentionsAll (node.outline role)
  pattern : node.label.kind ≠ .parameterList → ∀ u l, Use node l →
    l ∈ (Pattern.names u node).map Prod.fst ∨ l ∈ mentionsAll (node.outline .pattern)

/-- What is used below a child that a plan meets is mentioned. -/
theorem Part.Meets.say {children : List Node} {c : Node} {parts : List Part} {l : Label}
    (h : Meets children c parts) (hshaped : c.Shaped) (hc : Complete c) (huse : Use c l) :
    Say children parts l := by
  cases h with
  | child hfits hrole hreads => exact hreads.say (hc.outline _ hfits hrole l huse)
  | name hname hsay =>
    have hleaf : c.label.kind.isLeaf = true := by
      cases hkind : c.label.kind <;> first | rfl | (rw [hkind] at hname; cases hname)
    rwa [huse.of_leaf hshaped hleaf]
  | pattern hfits hreads hnames =>
    rcases hc.pattern hfits false l huse with hl | hl
    · exact hnames false l hl
    · exact hreads.say hl

/-- A name is mentioned in any role that it plays. -/
theorem name_say {label : Label} {children : List Node} (hname : label.kind.isNameNode = true)
    {role : Role} (hfits : role.Fits label) (hrole : role ≠ .pattern) :
    Part.Say children (plan role label children) label := by
  have hentry : ∀ {e : Entry}, e.mentions = [label] → Part.Say children [.entry e] label :=
    fun he => ⟨_, List.mem_singleton_self _,
      Part.mem_mentions_entry.mpr (he ▸ List.mem_singleton_self _)⟩
  have hbinding : ∀ kind init, Part.Say children (bindingPlan kind init label children) label := by
    intro kind init
    refine Part.Say.mono ?_ (List.subset_append_left ..)
    rw [Part.Say, Part.mem_mentions_entries, mentionsAll_declarations,
      Pattern.names_of_name false hname]
    exact List.mem_singleton_self _
  have hcode : label.kind.IsCode → Part.Say children (codePlan label children) label := by
    intro hcode
    have hpart := hcode.patternPart
    rw [codePlan]
    cases hkind : label.kind <;>
      first
      | exact hentry rfl
      | (rw [hkind] at hname; cases hname; done)
      | (rw [hkind] at hpart; cases hpart)
  cases role with
  | pattern => exact absurd rfl hrole
  | code => exact hcode hfits
  | binding kind init => exact hbinding kind init
  | parameter =>
    rw [plan, if_neg (by rintro hkind; rw [hkind] at hname; cases hname)]
    exact hbinding .parameter false
  | tagPart name =>
    rw [plan, if_neg hfits.1]
    exact hcode hfits.2
  | target =>
    have hform := targetPlan_form label children
    generalize plan .target label children = parts at hform
    cases hform with
    | name => exact hentry rfl
    | code => exact hcode hfits
    | parenthesized h =>
      rw [h] at hname
      cases hname
    | pattern h => rcases h with h | h | h | h <;> rw [h] at hname <;> cases hname
  | updated =>
    have hform := updatedPlan_form label children
    generalize plan .updated label children = parts at hform
    cases hform with
    | name => exact hentry rfl
    | code => exact hcode hfits
    | parenthesized h =>
      rw [h] at hname
      cases hname
  | contents | classPart | declarator | parameters | decorator =>
    simp only [Role.Fits] at hfits
    cases hkind : label.kind <;>
      first
      | (rw [hkind] at hname; cases hname; done)
      | (rw [hkind] at hfits; exact absurd hfits (by decide))

/-- What an import declares or an export uses is mentioned in its plan. -/
theorem clause_say {label : Label} {children : List Node} {l : Label}
    (h : label.kind = .importStatement ∧ ImportedName children l ∨
      label.kind = .exportStatement ∧ ExportedName children l) :
    Part.Say children (codePlan label children) l := by
  rcases h with ⟨h, hl⟩ | ⟨h, hl⟩
  · rw [codePlan, h]
    exact ⟨_, List.mem_map_of_mem (mem_importedNames.mpr hl),
      Part.mem_mentions_entry.mpr (List.mem_singleton_self _)⟩
  · have hnone : Node.inField? .source children = none := by
      obtain ⟨hnone⟩ := hl
      exact hnone
    rw [codePlan, h]
    refine Part.Say.mono ?_ (List.subset_append_right ..)
    simp only [hnone, Option.isSome_none, Bool.false_eq_true, if_false]
    exact ⟨_, List.mem_map_of_mem ((mem_exportedNames hnone).mpr hl),
      Part.mem_mentions_entry.mpr (List.mem_singleton_self _)⟩

/-- **In a tree of the promised shape every use is mentioned.** -/
theorem complete {node : Node} (hshaped : node.Shaped) : Complete node := by
  induction hshaped with
  | @node label children hshape hbelow ih =>
    have hclause : ∀ {l}, (label.kind = .importStatement ∧ ImportedName children l ∨
        label.kind = .exportStatement ∧ ExportedName children l) →
          ∀ role : Role, role.Fits label → Part.Say children (plan role label children) l := by
      intro l h role hfits
      have htells : label.kind.tellsNames = true := by
        rcases h with ⟨h, _⟩ | ⟨h, _⟩ <;> rw [h] <;> rfl
      exact (clause_say h).mono (codePlan_subset_plan htells hfits)
    constructor
    · intro role hfits hrole l huse
      refine mem_mentions_outline.mpr ?_
      cases huse with
      | name hname => exact name_say hname hfits hrole
      | @within _ _ c _ hc huse =>
        rcases plan_meets hshape hbelow hc huse role hfits with ⟨hpattern, _⟩ | hmeets
        · exact absurd hpattern hrole
        · exact hmeets.say (hbelow c hc.mem) (ih c hc.mem) huse
      | imported h hl => exact hclause (Or.inl ⟨h, hl⟩) role hfits
      | exported h hl => exact hclause (Or.inr ⟨h, hl⟩) role hfits
    · intro hlist u l huse
      cases huse with
      | name hname =>
        rw [Pattern.names_of_name u hname]
        exact Or.inl (List.mem_singleton_self _)
      | @within _ _ c _ hc huse =>
        rcases patternPlan_meets hshape hbelow hc huse hlist with
          ⟨_, hpart, hother, hreads⟩ | hmeets
        · rcases (ih c hc.mem).pattern hother u l huse with hl | hl
          · exact Or.inl (hpart.mem_fst_names hl u)
          · exact Or.inr (mem_mentions_outline.mpr (hreads.say hl))
        · exact Or.inr (mem_mentions_outline.mpr
            (hmeets.say (hbelow c hc.mem) (ih c hc.mem) huse))
      | imported h hl =>
        exact Or.inr (mem_mentions_outline.mpr (hclause (Or.inl ⟨h, hl⟩) .pattern hlist))
      | exported h hl =>
        exact Or.inr (mem_mentions_outline.mpr (hclause (Or.inr ⟨h, hl⟩) .pattern hlist))

end ScopeLint
