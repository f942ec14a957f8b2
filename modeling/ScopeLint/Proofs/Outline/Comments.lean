import ScopeLint.Proofs.Outline.Within
import ScopeLint.Proofs.Syntax.Comments

/-! # Comments leave no trace in an outline

Whatever its role among the named children of a node, a comment contributes nothing.  So the
outline of a tree without some of its comments is that of the tree with them, the nodes
numbered anew (`outline_uncommented`).

What a node contributes is compared plan by plan: both plans make the same choices, for these
look at fields and kinds only, and what they hand to the children gives the same by induction.
-/

namespace ScopeLint

open Syntax

variable {f : Nat → Nat}

/-! ### Outlines numbered anew -/

mutual

/-- An entry whose labels get other ids. -/
def Entry.renumber (f : Nat → Nat) : Entry → Entry
  | .definition name kind => .definition (name.renumber f) kind
  | .reference name access init => .reference (name.renumber f) access init
  | .scope kind span entries => .scope kind span (renumberAll f entries)

/-- Entries whose labels get other ids. -/
def Entry.renumberAll (f : Nat → Nat) : List Entry → List Entry
  | [] => []
  | e :: rest => e.renumber f :: renumberAll f rest

end

theorem Entry.renumberAll_eq (f : Nat → Nat) (es : List Entry) :
    renumberAll f es = es.map (renumber f) := by
  induction es with
  | nil => rfl
  | cons e rest ih => exact congrArg (e.renumber f :: ·) ih

/-- The same part, where a tag's name gets another id. -/
def Role.renumber (f : Nat → Nat) : Role → Role
  | .tagPart name => .tagPart (name.map f)
  | role => role

/-- Names with what is known of them, where the nodes get other ids. -/
def Pattern.renumber (f : Nat → Nat) (name : Label × Bool) : Label × Bool :=
  (name.1.renumber f, name.2)

theorem Pattern.declarations_renumber (kind : DefinitionKind) (init : Bool) :
    ∀ names : List (Label × Bool), declarations kind init (names.map (renumber f)) =
      (declarations kind init names).map (Entry.renumber f)
  | [] => rfl
  | (name, underDefault) :: rest => by
      have ih := declarations_renumber kind init rest
      show (_ :: _) ++ declarations kind init (rest.map (renumber f)) =
        List.map _ ((_ :: _) ++ declarations kind init rest)
      rw [ih, List.map_append]
      congr 1
      show _ :: (if (init || underDefault) = true then _ else _) =
        _ :: List.map _ (if _ then _ else _)
      split <;> rfl

theorem Pattern.assignments_renumber (names : List (Label × Bool)) :
    assignments (names.map (renumber f)) = (assignments names).map (Entry.renumber f) := by
  rw [assignments, assignments, List.map_map, List.map_map]
  rfl

/-! ### Names of patterns -/

/-- A comment in a pattern binds nothing. -/
theorem Pattern.names_comment (u : Bool) {node : Node} (h : node.label.kind = .comment) :
    names u node = [] := by
  obtain ⟨label, children⟩ := node
  have h : label.kind = .comment := h
  exact names_of_other u (by rw [h]; rfl) (by rw [h]; rfl) (by simp [h]) (by rw [h]; rfl)

mutual

theorem Pattern.names_uncommented (u : Bool) : ∀ (node : Node) {node' : Node},
    node.Uncommented f node' → node.CommentsLoose →
      names u node' = (names u node).map (renumber f)
  | .node label children, _, .node _ h, .node extra below => by
      have hkind : (label.renumber f).kind = label.kind := rfl
      by_cases hname : label.kind.isNameNode = true
      · rw [names_of_name u hname, names_of_name u (hkind ▸ hname)]
        rfl
      by_cases hlist : label.kind.isPatternList = true
      · rw [names_of_list u hlist, names_of_list u (hkind ▸ hlist)]
        exact namesInNamed_uncommented u children h below
      by_cases hpair : label.kind = .pairPattern ∨ label.kind = .pair
      · rw [names_of_pair u hpair, names_of_pair u (hkind ▸ hpair)]
        exact namesInField_uncommented u .value children h below extra.fields
      by_cases hdefault : label.kind.isDefault = true
      · rw [names_of_default u hdefault, names_of_default u (hkind ▸ hdefault)]
        exact namesInField_uncommented true .left children h below extra.fields
      · have hname := Bool.eq_false_of_not_eq_true hname
        have hlist := Bool.eq_false_of_not_eq_true hlist
        have hpair := not_or.mp hpair
        have hdefault := Bool.eq_false_of_not_eq_true hdefault
        rw [names_of_other u hname hlist hpair hdefault,
          names_of_other u (hkind ▸ hname) (hkind ▸ hlist) (hkind ▸ hpair) (hkind ▸ hdefault)]
        rfl

theorem Pattern.namesInNamed_uncommented (u : Bool) : ∀ (children : List Node)
    {children' : List Node}, Node.LeaveOut (Node.Uncommented f) children children' →
      (∀ c ∈ children, c.CommentsLoose) →
      namesInNamed u children' = (namesInNamed u children).map (renumber f)
  | [], _, .nil, _ => rfl
  | c :: rest, _, .keep hc h, below => by
      have hown := names_uncommented u c hc (below c (List.mem_cons_self ..))
      have hrest :=
        namesInNamed_uncommented u rest h fun d hd => below d (List.mem_cons_of_mem _ hd)
      rw [namesInNamed, namesInNamed, hc.label_eq, hown, hrest, List.map_append]
      show (if c.label.named = true then _ else _) ++ _ = _
      split <;> rfl
  | c :: rest, _, .drop hkind h, below => by
      have hrest :=
        namesInNamed_uncommented u rest h fun d hd => below d (List.mem_cons_of_mem _ hd)
      rw [namesInNamed, names_comment u hkind, ite_self, List.nil_append, hrest]

theorem Pattern.namesInField_uncommented (u : Bool) (place : Field) : ∀ (children : List Node)
    {children' : List Node}, Node.LeaveOut (Node.Uncommented f) children children' →
      (∀ c ∈ children, c.CommentsLoose) →
      (∀ c ∈ children, c.label.kind = .comment → c.label.fields = []) →
      namesInField u place children' = (namesInField u place children).map (renumber f)
  | [], _, .nil, _, _ => rfl
  | c :: rest, _, .keep hc h, below, fields => by
      have hown := names_uncommented u c hc (below c (List.mem_cons_self ..))
      have hrest := namesInField_uncommented u place rest h
        (fun d hd => below d (List.mem_cons_of_mem _ hd))
        (fun d hd => fields d (List.mem_cons_of_mem _ hd))
      rw [namesInField, namesInField, hc.label_eq, hown, hrest]
      show (if c.label.isIn place = true then _ else _) = _
      split <;> rfl
  | c :: rest, _, .drop hkind h, below, fields => by
      have hrest := namesInField_uncommented u place rest h
        (fun d hd => below d (List.mem_cons_of_mem _ hd))
        (fun d hd => fields d (List.mem_cons_of_mem _ hd))
      have hout : c.label.isIn place = false := by
        rw [Label.isIn, fields c (List.mem_cons_self ..) hkind]
        rfl
      rw [namesInField, hout, hrest]
      rfl

end

/-! ### Names of imports and exports -/

section Clauses

variable {node node' : Node}

/-- A label is a name whatever its id. -/
theorem filter_renumber (o : Option Label) :
    ((o.map (Label.renumber f)).filter (·.kind.isName)).toList =
      (o.filter (·.kind.isName)).toList.map (Label.renumber f) := by
  cases o with
  | none => rfl
  | some l =>
    rw [Option.map_some, Option.filter_some, Option.filter_some]
    show (if l.kind.isName = true then _ else _ : Option Label).toList = _
    split <;> rfl

theorem filter_orElse_renumber (a b : Option Label) :
    ((a.map (Label.renumber f) <|> b.map (Label.renumber f)).filter (·.kind.isName)).toList =
      ((a <|> b).filter (·.kind.isName)).toList.map (Label.renumber f) := by
  cases a with
  | some l => exact filter_renumber (some l)
  | none => exact filter_renumber b

theorem importedBySpecifier_uncommented (h : node.Uncommented f node')
    (hloose : node.CommentsLoose) :
    importedBySpecifier node' = (importedBySpecifier node).map (Label.renumber f) := by
  obtain ⟨label, h⟩ := h
  obtain ⟨extra, below⟩ := hloose
  rw [importedBySpecifier, importedBySpecifier]
  show (if label.kind = .importSpecifier then _ else _) = _
  by_cases hkind : label.kind = .importSpecifier
  · rw [if_pos hkind, if_pos hkind, h.inField? extra, h.inField? extra, filter_orElse_renumber]
  · rw [if_neg hkind, if_neg hkind]
    rfl

theorem exportedBySpecifier_uncommented (h : node.Uncommented f node')
    (hloose : node.CommentsLoose) :
    exportedBySpecifier node' = (exportedBySpecifier node).map (Label.renumber f) := by
  obtain ⟨label, h⟩ := h
  obtain ⟨extra, below⟩ := hloose
  rw [exportedBySpecifier, exportedBySpecifier]
  show (if label.kind = .exportSpecifier then _ else _) = _
  by_cases hkind : label.kind = .exportSpecifier
  · rw [if_pos hkind, if_pos hkind, h.inField? extra]
    exact filter_renumber _
  · rw [if_neg hkind, if_neg hkind]
    rfl

/-- What chosen children yield agrees, if comments yield nothing. -/
theorem flatMap_chosen {α : Type} {g : α → α} {children children' : List Node}
    (h : Node.LeaveOut (Node.Uncommented f) children children') (chosen : Label → Bool)
    (hchosen : ∀ l : Label, chosen (l.renumber f) = chosen l) (read : Node → List α)
    (hkeep : ∀ c ∈ children, ∀ c', c.Uncommented f c' → read c' = (read c).map g)
    (hdrop : ∀ c : Node, chosen c.label = true → c.label.kind = .comment → read c = []) :
    (children'.filter (chosen ·.label)).flatMap read =
      ((children.filter (chosen ·.label)).flatMap read).map g := by
  have hfilter := h.filter (p := (chosen ·.label)) fun c c' hc => by rw [hc.label_eq, hchosen]
  exact hfilter.flatMap (fun c hc => hkeep c (List.mem_of_mem_filter hc))
    fun c hc => hdrop c (List.mem_filter.mp hc).2

theorem importedBySpecifier_comment {node : Node} (h : node.label.kind = .comment) :
    importedBySpecifier node = [] := by
  obtain ⟨label, children⟩ := node
  exact if_neg fun hkind => by cases h.symm.trans hkind

theorem exportedBySpecifier_comment {node : Node} (h : node.label.kind = .comment) :
    exportedBySpecifier node = [] := by
  obtain ⟨label, children⟩ := node
  exact if_neg fun hkind => by cases h.symm.trans hkind

theorem importedByPart_comment {node : Node} (h : node.label.kind = .comment) :
    importedByPart node = [] := by
  obtain ⟨label, children⟩ := node
  have h : label.kind = .comment := h
  rw [importedByPart, h]

theorem importedByPart_uncommented (h : node.Uncommented f node') (hloose : node.CommentsLoose) :
    importedByPart node' = (importedByPart node).map (Label.renumber f) := by
  obtain ⟨label, h⟩ := h
  obtain ⟨extra, below⟩ := hloose
  have hnamed := flatMap_chosen h Label.named (fun _ => rfl) importedBySpecifier
    (fun c hc _ hcc => importedBySpecifier_uncommented hcc (below c hc))
    fun _ _ => importedBySpecifier_comment
  have hsame : (label.renumber f).kind = label.kind := rfl
  rw [importedByPart, importedByPart, hsame]
  cases label.kind
  case identifier | undefined => rfl
  case namespaceImport =>
    show Option.toList _ = _
    rw [h.name?]
    cases Node.namedLabels _ |>.find? _ <;> rfl
  case namedImports => exact hnamed
  all_goals rfl

end Clauses

section Names

variable {children children' : List Node}

/-- What the parts of the clauses of a kind yield agrees, if comments yield nothing. -/
theorem flatMap_clauses {clause : Kind} (hclause : clause ≠ .comment) {read : Node → List Label}
    (hread : ∀ {part part' : Node}, part.Uncommented f part' → part.CommentsLoose →
      read part' = (read part).map (Label.renumber f))
    (hcomment : ∀ {part : Node}, part.label.kind = .comment → read part = [])
    (h : Node.LeaveOut (Node.Uncommented f) children children')
    (below : ∀ c ∈ children, c.CommentsLoose) :
    ((children'.filter fun c => c.label.named && c.label.kind == clause).flatMap fun c =>
        (c.children.filter (·.label.named)).flatMap read) =
      ((children.filter fun c => c.label.named && c.label.kind == clause).flatMap fun c =>
        (c.children.filter (·.label.named)).flatMap read).map (Label.renumber f) := by
  refine flatMap_chosen h (fun l => l.named && l.kind == clause) (fun _ => rfl) _ ?_ ?_
  · rintro c hc _ ⟨label, hparts⟩
    obtain ⟨_, hbelow⟩ := below _ hc
    exact flatMap_chosen hparts Label.named (fun _ => rfl) read
      (fun d hd _ hdd => hread hdd (hbelow d hd)) fun _ _ => hcomment
  · intro c hchosen hkind
    obtain ⟨_, hchosen⟩ := Bool.and_eq_true_iff.mp hchosen
    exact absurd ((beq_iff_eq.mp hchosen).symm.trans hkind) hclause

theorem importedNames_uncommented (h : Node.LeaveOut (Node.Uncommented f) children children')
    (below : ∀ c ∈ children, c.CommentsLoose) :
    importedNames children' = (importedNames children).map (Label.renumber f) :=
  flatMap_clauses Kind.noConfusion importedByPart_uncommented importedByPart_comment h below

theorem exportedNames_uncommented (h : Node.LeaveOut (Node.Uncommented f) children children')
    (below : ∀ c ∈ children, c.CommentsLoose) :
    exportedNames children' = (exportedNames children).map (Label.renumber f) :=
  flatMap_clauses Kind.noConfusion exportedBySpecifier_uncommented exportedBySpecifier_comment h
    below

end Names

/-! ### Plans -/

/-- **Parts that agree** when the nodes get other ids.  Only under the condition `later` may they
leave out the first named child. -/
inductive Part.Alike (f : Nat → Nat) (later : Prop) : List Part → List Part → Prop
  | nil : Alike f later [] []
  | entry (e : Entry) {rest rest' : List Part} : Alike f later rest rest' →
      Alike f later (.entry e :: rest) (.entry (e.renumber f) :: rest')
  | named (role : Role) {rest rest' : List Part} : Alike f later rest rest' →
      Alike f later (.named role :: rest) (.named (role.renumber f) :: rest')
  | laterNamed (hlater : later) (role : Role) {rest rest' : List Part} : Alike f later rest rest' →
      Alike f later (.laterNamed role :: rest) (.laterNamed (role.renumber f) :: rest')
  | field (place : Field) (role : Role) {rest rest' : List Part} : Alike f later rest rest' →
      Alike f later (.field place role :: rest) (.field place (role.renumber f) :: rest')
  | scope (kind : ScopeKind) (span : Span) {parts parts' rest rest' : List Part} :
      Alike f later parts parts' → Alike f later rest rest' →
        Alike f later (.scope kind span parts :: rest) (.scope kind span parts' :: rest')

namespace Part.Alike

variable {later : Prop} {ps ps' qs qs' : List Part}

theorem append (h : Alike f later ps ps') (hq : Alike f later qs qs') :
    Alike f later (ps ++ qs) (ps' ++ qs') := by
  induction h with
  | nil => exact hq
  | entry e _ ih => exact .entry e ih
  | named role _ ih => exact .named role ih
  | laterNamed hlater role _ ih => exact .laterNamed hlater role ih
  | field place role _ ih => exact .field place role ih
  | scope kind span hin _ _ ih => exact .scope kind span hin ih

/-- Entries at names, when they say the same of a name with another id. -/
theorem eachName {α : Type} {g : α → α} (entry : α → Entry)
    (hentry : ∀ a, entry (g a) = (entry a).renumber f) : ∀ names : List α,
      Alike f later (names.map fun a => .entry (entry a))
        ((names.map g).map fun a => .entry (entry a))
  | [] => .nil
  | a :: rest => by
      rw [List.map_cons, List.map_cons, List.map_cons, hentry]
      exact .entry (entry a) (eachName entry hentry rest)

theorem entries (es : List Entry) :
    Alike f later (es.map .entry) ((es.map (Entry.renumber f)).map .entry) :=
  eachName id (fun _ => rfl) es

end Part.Alike

section Plans

variable {later : Prop} {label owner : Label} {children children' : List Node}
  (h : Node.LeaveOut (Node.Uncommented f) children children')
  (extra : Node.ExtraComments owner children) (below : ∀ c ∈ children, c.CommentsLoose)

include h extra

theorem Part.definitionInField_alike (kind : DefinitionKind) (place : Field) :
    Alike f later (definitionInField kind place children)
      (definitionInField kind place children') := by
  rw [definitionInField, definitionInField, h.inField? extra]
  cases Node.inField? place children with
  | none => exact .nil
  | some name => exact .entry (.definition name kind) .nil

theorem Part.scopeOverField_alike (kind : ScopeKind) (place : Field) {role : Role}
    (hrole : role.renumber f = role) :
    Alike f later (scopeOverField kind place role children)
      (scopeOverField kind place role children') := by
  rw [scopeOverField, scopeOverField, h.inField? extra]
  cases Node.inField? place children with
  | none => exact .nil
  | some child =>
    have hfield : Alike f later [.field place role] [.field place (role.renumber f)] :=
      .field place role .nil
    rw [hrole] at hfield
    exact .scope kind child.span hfield .nil

theorem Part.computedKey_alike (place : Field) :
    Alike f later (computedKey place children) (computedKey place children') := by
  rw [computedKey, computedKey, h.kindInField? extra]
  split
  · exact .field place .code .nil
  · exact .nil

theorem Part.function_alike (span : Span) :
    Alike f later [function span children] [function span children'] := by
  have hbody : sharedBody children' = sharedBody children := by
    rw [sharedBody, sharedBody, h.kindInField? extra]
  have hbodies : Alike f later [sharedBody children] [sharedBody children] := by
    rw [sharedBody]
    split
    · exact .field .body .contents .nil
    · exact .field .body .code .nil
  rw [function, function, hbody, h.inField? extra, Option.isSome_map]
  refine .scope .function span ?_ .nil
  split
  · exact .field .parameters .parameters hbodies
  · exact .field .parameter (.binding .parameter false) hbodies

omit h extra in
theorem Part.classScope_alike (span : Span) {own own' : List Part} (hown : Alike f later own own') :
    Alike f later (classScope span own) (classScope span own') :=
  .named .decorator (.scope .classBody span (hown.append (.named .classPart .nil)) .nil)

omit extra in
include below in
theorem Part.assignedPattern_alike :
    Alike f later (assignedPattern children) (assignedPattern children') := by
  rw [assignedPattern, assignedPattern, Pattern.namesInNamed_uncommented false children h below,
    Pattern.assignments_renumber]
  exact (Alike.entries _).append (.named .pattern .nil)

end Plans

section Plans

variable {label : Label} {children children' : List Node}
  (h : Node.LeaveOut (Node.Uncommented f) children children')
  (extra : Node.ExtraComments label children) (below : ∀ c ∈ children, c.CommentsLoose)

include h extra below

theorem codePlan_alike {later : Prop} (hlater : label.kind = .jsxAttribute → later) :
    Part.Alike f later (codePlan label children) (codePlan (label.renumber f) children') := by
  have hfunction : Part.Alike f later [Part.function label.span children]
      [Part.function label.span children'] := Part.function_alike h extra label.span
  have hsame : (label.renumber f).kind = label.kind := rfl
  unfold codePlan
  rw [hsame]
  -- The cases stand in the order of the kinds in `codePlan`, and what is left is ordinary.
  cases hkind : label.kind
  case identifier | undefined | shorthandPropertyIdentifier =>
    exact .entry (.reference label .read false) .nil
  case propertyIdentifier | privatePropertyIdentifier | statementIdentifier | metaProperty
    | comment | jsxClosingElement => exact .nil
  case variableDeclaration => exact .named (.declarator .byVar) .nil
  case lexicalDeclaration =>
    have hkeyword : lexicalKeyword children' = lexicalKeyword children := by
      rw [lexicalKeyword, lexicalKeyword, h.kindInField? extra]
    rw [hkeyword]
    exact .named (.declarator _) .nil
  case functionDeclaration | generatorFunctionDeclaration =>
    exact (Part.definitionInField_alike h extra .functionName .name).append hfunction
  case functionExpression | function | generatorFunction =>
    rw [h.inField? extra]
    cases Node.inField? .name children with
    | none => exact hfunction
    | some name =>
      exact .scope _ _ (.entry (.definition name .functionName) hfunction) .nil
  case arrowFunction => exact hfunction
  case methodDefinition =>
    exact (Part.Alike.named .decorator (Part.computedKey_alike h extra .name)).append hfunction
  case classDeclaration =>
    exact (Part.definitionInField_alike h extra .className .name).append
      (Part.classScope_alike label.span .nil)
  case classExpression =>
    exact Part.classScope_alike label.span (Part.definitionInField_alike h extra .className .name)
  case fieldDefinition =>
    exact (Part.Alike.named .decorator (Part.computedKey_alike h extra .property)).append
      (Part.scopeOverField_alike h extra .classFieldInitializer .value rfl)
  case classStaticBlock =>
    rw [h.kindInField? extra]
    refine .scope .classStaticBlock label.span ?_ .nil
    split
    · exact .field .body .contents .nil
    · exact .named .code .nil
  case statementBlock => exact .scope .block label.span (.named .code .nil) .nil
  case forStatement =>
    rw [h.hasLexicalHead]
    show Part.Alike f later (if _ then _ else _) (if _ then _ else _)
    split
    · exact .scope .forLoop label.span (.named .code .nil) .nil
    · exact .named .code .nil
  case forInStatement =>
    have hhead : headKeyword? children' = headKeyword? children := by
      rw [headKeyword?, headKeyword?, h.kindInField? extra]
    rw [hhead]
    have hlast : Part.Alike f later [.field .right .code, .field .body .code]
        [.field .right .code, .field .body .code] :=
      .field .right .code (.field .body .code .nil)
    cases headKeyword? children with
    | none => exact .field .left .target hlast
    | some keyword =>
      cases keyword with
      | byVar => exact .field .left (.binding _ true) (.field .value .code hlast)
      | byLet | byConst =>
        exact .scope .forLoop label.span (.field .left (.binding _ true) hlast) .nil
  case catchClause =>
    exact .scope .catchClause label.span
      (.field .parameter (.binding .catchClause false) (.field .body .code .nil)) .nil
  case switchStatement =>
    exact .field .value .code (Part.scopeOverField_alike h extra .switchBody .body rfl)
  case withStatement =>
    exact .field .object .code (Part.scopeOverField_alike h extra .withBody .body rfl)
  case assignmentExpression => exact .field .left .target (.field .right .code .nil)
  case augmentedAssignmentExpression => exact .field .left .updated (.field .right .code .nil)
  case updateExpression => exact .field .argument .updated .nil
  case objectPattern | arrayPattern => exact Part.assignedPattern_alike h below
  case importStatement =>
    rw [importedNames_uncommented h below]
    exact Part.Alike.eachName (fun name => .definition name .importBinding) (fun _ => rfl) _
  case exportStatement =>
    refine .named .decorator (.field .declaration .code (.field .value .code ?_))
    rw [h.inField? extra, Option.isSome_map, exportedNames_uncommented h below]
    split
    · exact .nil
    · exact Part.Alike.eachName (fun name => .reference name .read false) (fun _ => rfl) _
  case jsxOpeningElement | jsxSelfClosingElement =>
    have hname : (Node.inField? .name children').map (·.id) =
        ((Node.inField? .name children).map (·.id)).map f := by
      rw [h.inField? extra, Option.map_map, Option.map_map]
      rfl
    rw [hname]
    exact .named (.tagPart _) .nil
  case jsxAttribute => exact .laterNamed (hlater hkind) .code .nil
  all_goals exact .named .code .nil

theorem patternPlan_alike {later : Prop} (hlater : label.kind = .jsxAttribute → later) :
    Part.Alike f later (patternPlan label children) (patternPlan (label.renumber f) children') := by
  have hcode := codePlan_alike h extra below hlater
  have hsame : (label.renumber f).kind = label.kind := rfl
  unfold patternPlan
  rw [hsame]
  cases label.kind
  case identifier | undefined | shorthandPropertyIdentifierPattern | shorthandPropertyIdentifier
    | comment => exact .nil
  case objectPattern | arrayPattern | object | array | restPattern | spreadElement
    | parenthesizedExpression => exact .named .pattern .nil
  case pairPattern | pair =>
    exact (Part.computedKey_alike h extra .key).append (.field .value .pattern .nil)
  case assignmentPattern | objectAssignmentPattern | assignmentExpression =>
    exact .field .left .pattern (.field .right .code .nil)
  all_goals exact hcode

theorem bindingPlan_alike {later : Prop} (hlater : label.kind = .jsxAttribute → later)
    (kind : DefinitionKind) (init : Bool) :
    Part.Alike f later (bindingPlan kind init label children)
      (bindingPlan kind init (label.renumber f) children') := by
  have hnames := Pattern.names_uncommented false _ (.node label h) (.node extra below)
  unfold bindingPlan
  rw [hnames, Pattern.declarations_renumber]
  exact (Part.Alike.entries _).append (patternPlan_alike h extra below hlater)

/-- **What a node contributes is the same without comments.** -/
theorem plan_alike (hf : Function.Injective f) {later : Prop}
    (hlater : label.kind = .jsxAttribute → later) (role : Role) :
    Part.Alike f later (plan role label children)
      (plan (role.renumber f) (label.renumber f) children') := by
  have hcode := codePlan_alike h extra below hlater
  have hsame : (label.renumber f).kind = label.kind := rfl
  cases role
  case code => exact hcode
  case contents => exact .named .code .nil
  case target =>
    unfold plan
    rw [hsame]
    cases label.kind
    case identifier | undefined => exact .entry (.reference label .write false) .nil
    case parenthesizedExpression => exact .named .target .nil
    case objectPattern | arrayPattern | object | array => exact Part.assignedPattern_alike h below
    all_goals exact hcode
  case updated =>
    unfold plan
    rw [hsame]
    cases label.kind
    case identifier | undefined => exact .entry (.reference label .readWrite false) .nil
    case parenthesizedExpression => exact .named .updated .nil
    all_goals exact hcode
  case binding kind init => exact bindingPlan_alike h extra below hlater kind init
  case pattern => exact patternPlan_alike h extra below hlater
  case declarator keyword =>
    show Part.Alike f later (if _ then _ else _) (if label.kind = .variableDeclarator then _ else _)
    rw [h.inField? extra, Option.isSome_map]
    split
    · exact .field .name (.binding (.declared keyword) _) (.field .value .code .nil)
    · exact .nil
  case parameters => exact .named .parameter .nil
  case parameter =>
    show Part.Alike f later (if _ then _ else _) (if label.kind = .comment then _ else _)
    split
    · exact .nil
    · exact bindingPlan_alike h extra below hlater .parameter false
  case decorator =>
    show Part.Alike f later (if _ then _ else _) (if label.kind = .decorator then _ else _)
    split
    · exact .named .code .nil
    · exact .nil
  case classPart =>
    show Part.Alike f later (if _ then _ else _)
      (if label.kind = .classHeritage ∨ label.kind = .classBody then _ else _)
    split
    · exact .named .code .nil
    · exact .nil
  case tagPart name =>
    have hname : some (label.renumber f).id = name.map f ↔ some label.id = name := by
      show (some label.id).map f = name.map f ↔ _
      exact (Option.map_injective hf).eq_iff
    show Part.Alike f later (if _ then _ else _)
      (if some (label.renumber f).id = name.map f then _ else _)
    simp only [hname]
    split
    · exact .nil
    · exact hcode

end Plans

/-! ### Outlines -/

/-- What the children contribute is the same when the nodes get other ids. -/
structure Below.Alike (f : Nat → Nat) (later : Prop) (below below' : Below) : Prop where
  named : ∀ role : Role, below'.named (role.renumber f) = (below.named role).map (Entry.renumber f)
  laterNamed : later → ∀ role : Role,
    below'.laterNamed (role.renumber f) = (below.laterNamed role).map (Entry.renumber f)
  field : ∀ (place : Field) (role : Role),
    below'.field place (role.renumber f) = (below.field place role).map (Entry.renumber f)

theorem Part.Alike.entriesAll {later : Prop} {below below' : Below}
    (hbelow : below.Alike f later below') {ps ps' : List Part} (h : Part.Alike f later ps ps') :
    Part.entriesAll below' ps' = (Part.entriesAll below ps).map (Entry.renumber f) := by
  induction h with
  | nil => rfl
  | entry e _ ih =>
    rw [Part.entriesAll, Part.entriesAll, List.map_append, ih]
    rfl
  | named role _ ih =>
    rw [Part.entriesAll, Part.entriesAll, List.map_append, ih]
    exact congrArg (· ++ _) (hbelow.named role)
  | laterNamed hlater role _ ih =>
    rw [Part.entriesAll, Part.entriesAll, List.map_append, ih]
    exact congrArg (· ++ _) (hbelow.laterNamed hlater role)
  | field place role _ ih =>
    rw [Part.entriesAll, Part.entriesAll, List.map_append, ih]
    exact congrArg (· ++ _) (hbelow.field place role)
  | scope kind span _ _ ihin ih =>
    rw [Part.entriesAll, Part.entriesAll, List.map_append, ih, Part.entries, Part.entries, ihin,
      ← Entry.renumberAll_eq]
    rfl

/-- A comment contributes nothing in any role. -/
theorem outline_comment {node : Node} (hkind : node.label.kind = .comment)
    (hleaf : node.children = []) (role : Role) : node.outline role = [] := by
  obtain ⟨label, children⟩ := node
  obtain rfl : children = [] := hleaf
  have hnames : Pattern.names false (.node label []) = [] := Pattern.names_comment false hkind
  have hcomment : label.kind = .comment := hkind
  rw [outline_node]
  cases role <;>
    simp [plan, codePlan, patternPlan, bindingPlan, hcomment, hnames, Pattern.declarations,
      Part.entriesAll, Part.entries, Below.ofChildren, outlineNamed]

section Lists

variable {children children' : List Node} {role : Role}

theorem outlineNamed_uncommented (h : Node.LeaveOut (Node.Uncommented f) children children')
    (hkeep : ∀ c ∈ children, ∀ c', c.Uncommented f c' →
      c'.outline (role.renumber f) = (c.outline role).map (Entry.renumber f))
    (hdrop : ∀ c ∈ children, c.label.kind = .comment → c.outline role = []) :
    outlineNamed (role.renumber f) children' =
      (outlineNamed role children).map (Entry.renumber f) := by
  induction h with
  | nil => rfl
  | @keep c c' rest rest' hc _ ih =>
    have hrest := ih (fun d hd => hkeep d (List.mem_cons_of_mem _ hd))
      (fun d hd => hdrop d (List.mem_cons_of_mem _ hd))
    rw [outlineNamed, outlineNamed, hrest, hkeep c (List.mem_cons_self ..) c' hc, hc.label_eq,
      List.map_append]
    show (if c.label.named = true then _ else _) ++ _ = _
    split <;> rfl
  | @drop c rest rest' hkind _ ih =>
    have hrest := ih (fun d hd => hkeep d (List.mem_cons_of_mem _ hd))
      (fun d hd => hdrop d (List.mem_cons_of_mem _ hd))
    rw [outlineNamed, hdrop c (List.mem_cons_self ..) hkind, ite_self, List.nil_append, hrest]

/-- The first named child stays the first if it is no comment. -/
theorem outlineLater_uncommented (h : Node.LeaveOut (Node.Uncommented f) children children')
    (hfirst : ∀ l, (Node.namedLabels children).head? = some l → l.kind ≠ .comment)
    (hkeep : ∀ c ∈ children, ∀ c', c.Uncommented f c' →
      c'.outline (role.renumber f) = (c.outline role).map (Entry.renumber f))
    (hdrop : ∀ c ∈ children, c.label.kind = .comment → c.outline role = []) :
    outlineLater (role.renumber f) children' =
      (outlineLater role children).map (Entry.renumber f) := by
  induction h with
  | nil => rfl
  | @keep c c' rest rest' hc hrest ih =>
    have hkeep' := fun d hd => hkeep d (List.mem_cons_of_mem c hd)
    have hdrop' := fun d hd => hdrop d (List.mem_cons_of_mem c hd)
    rw [outlineLater, outlineLater, hc.label_eq]
    show (if c.label.named = true then _ else _) = _
    by_cases hnamed : c.label.named = true
    · rw [if_pos hnamed, if_pos hnamed]
      exact outlineNamed_uncommented hrest hkeep' hdrop'
    · rw [if_neg hnamed, if_neg hnamed]
      refine ih (fun l hl => hfirst l ?_) hkeep' hdrop'
      rw [Node.namedLabels, List.map_cons, List.filter_cons_of_neg hnamed]
      exact hl
  | @drop c rest rest' hkind hrest ih =>
    have hkeep' := fun d hd => hkeep d (List.mem_cons_of_mem c hd)
    have hdrop' := fun d hd => hdrop d (List.mem_cons_of_mem c hd)
    -- A comment that is left out is no named child, or else it would be the first.
    have hnamed : ¬ c.label.named = true := by
      intro hnamed
      refine hfirst c.label ?_ hkind
      rw [Node.namedLabels, List.map_cons, List.filter_cons_of_pos hnamed]
      rfl
    rw [outlineLater, if_neg hnamed]
    refine ih (fun l hl => hfirst l ?_) hkeep' hdrop'
    rw [Node.namedLabels, List.map_cons, List.filter_cons_of_neg hnamed]
    exact hl

theorem outlineField_uncommented {label : Label}
    (h : Node.LeaveOut (Node.Uncommented f) children children')
    (extra : Node.ExtraComments label children) (place : Field)
    (hkeep : ∀ c ∈ children, ∀ c', c.Uncommented f c' →
      c'.outline (role.renumber f) = (c.outline role).map (Entry.renumber f)) :
    outlineField place (role.renumber f) children' =
      (outlineField place role children).map (Entry.renumber f) := by
  rw [outlineField_eq, outlineField_eq]
  rcases h.childInField? extra place with ⟨hnone, hnone'⟩ | ⟨c, hc, c', hcc, hsome, hsome'⟩
  · rw [hnone, hnone']
    rfl
  · rw [hsome, hsome']
    exact hkeep c hc c' hcc

end Lists

mutual

/-- **The outline of a tree without some of its comments** is that of the tree, numbered
anew. -/
theorem outline_uncommented (hf : Function.Injective f) : ∀ (node : Node) {node' : Node},
    node.Uncommented f node' → node.CommentsLoose → ∀ role : Role,
      node'.outline (role.renumber f) = (node.outline role).map (Entry.renumber f)
  | .node label children, _, .node _ h, .node extra below, role => by
      have hchildren := outlines_uncommented hf children
      have hkeep : ∀ role : Role, ∀ c ∈ children, ∀ c', c.Uncommented f c' →
          c'.outline (role.renumber f) = (c.outline role).map (Entry.renumber f) :=
        fun role c hc c' hcc => hchildren c hc c' hcc (below c hc) role
      have hdrop : ∀ role : Role, ∀ c ∈ children, c.label.kind = .comment → c.outline role = [] :=
        fun role c hc hkind => outline_comment hkind (extra.leaf c hc hkind) role
      have hbelow : (Below.ofChildren children).Alike f (label.kind = .jsxAttribute)
          (.ofChildren _) :=
        { named := fun role => outlineNamed_uncommented h (hkeep role) (hdrop role)
          laterNamed := fun hkind role =>
            outlineLater_uncommented h (extra.first hkind) (hkeep role) (hdrop role)
          field := fun place role => outlineField_uncommented h extra place (hkeep role) }
      rw [outline_node, outline_node]
      exact (plan_alike h extra below hf id role).entriesAll hbelow

theorem outlines_uncommented (hf : Function.Injective f) : ∀ nodes : List Node,
    ∀ c ∈ nodes, ∀ c', c.Uncommented f c' → c.CommentsLoose → ∀ role : Role,
      c'.outline (role.renumber f) = (c.outline role).map (Entry.renumber f)
  | [], _, hc, _, _, _, _ => absurd hc List.not_mem_nil
  | child :: rest, c, hc, _, hcc, hloose, role => by
      rcases List.mem_cons.mp hc with hfirst | hc
      · rw [hfirst] at hcc hloose ⊢
        exact outline_uncommented hf child hcc hloose role
      · exact outlines_uncommented hf rest c hc _ hcc hloose role

end

end ScopeLint
