import ScopeLint.Proofs.Outline.Within
import ScopeLint.Proofs.Syntax.Faults

/-! # Outlines follow the order of the text

The children of a node are met in the order in which they stand, or by field; when the fields
stand in the order in which they are read (`Syntax.InReadingOrder`), that is the order of the
text too.  Patterns are met twice, but only the second time for the code inside them.  So the
scopes that an outline opens next to each other stand in the order of the text, each within the
range of the node around them (`outline_arranged`).

There is one exception.  The decorators of a class or a method and the computed name of a method
are met before the scope of the class or method is opened (`earlyEntries`), although its range
covers them.  What holds there of the scopes on one level is left open as a relation `R`; elsewhere
it is only supposed that `R` relates what ends to what starts behind it.
-/

namespace ScopeLint

open Syntax

/-- A range lies within another. -/
structure Span.Encloses (outer inner : Span) : Prop where
  start : outer.start ≤ inner.start
  proper : inner.start ≤ inner.stop
  stop : inner.stop ≤ outer.stop

theorem Span.Encloses.trans {outer middle inner : Span} (h : outer.Encloses middle)
    (h' : middle.Encloses inner) : outer.Encloses inner where
  start := Nat.le_trans h.start h'.start
  proper := h'.proper
  stop := Nat.le_trans h'.stop h.stop

/-! ### Fields in the order in which they are read -/

namespace Syntax

/-- The fields of the children that are met one by one, in the order in which they are met. -/
def fieldsInTurn (kind : Kind) (children : List Node) : List Field :=
  match kind with
  | .exportStatement => [.declaration, .value]
  | _ => readFields kind children

/-- **Children stand in the order in which they are met**: decorators before all that is found by
field, and that in the order of the fields. -/
structure InReadingOrder (label : Label) (children : List Node) : Prop where
  decorators : label.kind.takesDecorators = true → ∀ c ∈ children, c.label.kind = .decorator →
    ∀ f ∈ fieldsInTurn label.kind children, ∀ d, Node.childInField? f children = some d →
      c.label.span.stop ≤ d.label.span.start
  fields : (fieldsInTurn label.kind children).Pairwise fun f g => ∀ c d,
    Node.childInField? f children = some c → Node.childInField? g children = some d →
      c.label.span.stop ≤ d.label.span.start

instance (label : Label) (children : List Node) : Decidable (InReadingOrder label children) :=
  decidable_of_iff
    ((label.kind.takesDecorators = true → ∀ c ∈ children, c.label.kind = .decorator →
        ∀ f ∈ fieldsInTurn label.kind children, ∀ d ∈ Node.childInField? f children,
          c.label.span.stop ≤ d.label.span.start) ∧
      (fieldsInTurn label.kind children).Pairwise fun f g =>
        ∀ c ∈ Node.childInField? f children, ∀ d ∈ Node.childInField? g children,
          c.label.span.stop ≤ d.label.span.start)
    ⟨fun h => ⟨h.1, h.2.imp fun hfg c d hc hd => hfg c hc d hd⟩,
      fun h => ⟨h.decorators, h.fields.imp fun hfg c hc d hd => hfg c d hc hd⟩⟩

/-- **A tree in which all children stand in the order in which they are met.** -/
def Node.InReadingOrder (root : Node) : Prop :=
  ∀ node, root.Holds node → Syntax.InReadingOrder node.label node.children

theorem Node.InReadingOrder.node {label : Label} {children : List Node}
    (h : Syntax.InReadingOrder label children) (below : ∀ c ∈ children, c.InReadingOrder) :
    (Node.node label children).InReadingOrder := by
  intro part hpart
  cases hpart with
  | self => exact h
  | child hc hpart => exact below _ hc part hpart

end Syntax

/-! ### Scopes on one level -/

/-- The scope that an entry opens. -/
def Entry.opening? : Entry → Option (ScopeKind × Span)
  | .scope kind span _ => some (kind, span)
  | _ => none

/-- **The scopes that entries open next to each other**, in order. -/
def openingsBeside (es : List Entry) : List (ScopeKind × Span) := es.filterMap Entry.opening?

@[simp] theorem openingsBeside_nil : openingsBeside [] = [] := rfl

@[simp] theorem openingsBeside_append (es es' : List Entry) :
    openingsBeside (es ++ es') = openingsBeside es ++ openingsBeside es' :=
  List.filterMap_append ..

@[simp] theorem openingsBeside_scope (kind : ScopeKind) (span : Span) (es : List Entry) :
    openingsBeside [.scope kind span es] = [(kind, span)] := rfl

/-- What the decorators of a class or a method and the computed name of a method contribute: it is
met before the scope of the class or the method is opened. -/
def earlyEntries (label : Label) (children : List Node) : List Entry :=
  match label.kind with
  | .classDeclaration | .classExpression => outlineNamed .decorator children
  | .methodDefinition =>
    outlineNamed .decorator children ++
      Part.entriesAll (.ofChildren children) (Part.computedKey .name children)
  | _ => []

/-- The kind of the scope that is opened behind the early entries. -/
def coveringKind : Kind → ScopeKind
  | .methodDefinition => .function
  | _ => .classBody

section Relation

variable (R : ScopeKind × Span → ScopeKind × Span → Prop)

/-- Scopes next to each other within a range, in order. -/
structure ScopeLevel (span : Span) (os : List (ScopeKind × Span)) : Prop where
  within : ∀ o ∈ os, span.Encloses o.2
  order : os.Pairwise R

/-- An entry in whose scopes, and the scopes inside them, all stands in order. -/
inductive Entry.Arranged : Entry → Prop
  | definition (name : Label) (kind : DefinitionKind) : Arranged (.definition name kind)
  | reference (name : Label) (access : Access) (init : Bool) :
      Arranged (.reference name access init)
  | scope (kind : ScopeKind) {span : Span} {entries : List Entry}
      (level : ScopeLevel R span (openingsBeside entries)) (inner : ∀ e ∈ entries, Arranged e) :
      Arranged (.scope kind span entries)

/-- **Entries that stand in order**, within a range. -/
structure ArrangedAll (span : Span) (es : List Entry) : Prop where
  level : ScopeLevel R span (openingsBeside es)
  inner : ∀ e ∈ es, e.Arranged R

/-- What is met early in a class or a method stands to the scope of that as `R` says. -/
def EarlyBy (label : Label) (children : List Node) : Prop :=
  ∀ o ∈ openingsBeside (earlyEntries label children), label.span.Encloses o.2 →
    R o (coveringKind label.kind, label.span)

/-- **All that ends before the other starts is in order.** -/
def FollowsText : Prop :=
  ∀ o o' : ScopeKind × Span, o.2.start ≤ o.2.stop → o'.2.start ≤ o'.2.stop →
    o.2.stop ≤ o'.2.start → R o o'

end Relation

variable {R : ScopeKind × Span → ScopeKind × Span → Prop}

namespace ArrangedAll

variable {span : Span} {es es' : List Entry}

theorem nil (span : Span) : ArrangedAll R span [] :=
  ⟨⟨by simp, .nil⟩, by simp⟩

/-- Entries that open no scopes. -/
theorem of_none (h : ∀ e ∈ es, e.opening? = none) : ArrangedAll R span es := by
  have hnil : openingsBeside es = [] := List.filterMap_eq_nil_iff.mpr h
  refine ⟨hnil ▸ ⟨by simp, .nil⟩, fun e he => ?_⟩
  cases e with
  | definition name kind => exact .definition name kind
  | reference name access init => exact .reference name access init
  | scope kind span es => exact nomatch h _ he

theorem mono (h : ArrangedAll R span es) {outer : Span} (houter : outer.Encloses span) :
    ArrangedAll R outer es :=
  ⟨⟨fun o ho => houter.trans (h.level.within o ho), h.level.order⟩, h.inner⟩

theorem append (h : ArrangedAll R span es) (h' : ArrangedAll R span es')
    (hbefore : ∀ o ∈ openingsBeside es, ∀ o' ∈ openingsBeside es', R o o') :
    ArrangedAll R span (es ++ es') where
  level := by
    rw [openingsBeside_append]
    refine ⟨fun o ho => ?_, List.pairwise_append.mpr ⟨h.level.order, h'.level.order, hbefore⟩⟩
    exact (List.mem_append.mp ho).elim (h.level.within o) (h'.level.within o)
  inner := fun e he => (List.mem_append.mp he).elim (h.inner e) (h'.inner e)

theorem scope (kind : ScopeKind) (h : ArrangedAll R span es) {outer : Span}
    (houter : outer.Encloses span) : ArrangedAll R outer [.scope kind span es] where
  level := ⟨fun o ho => by rw [List.mem_singleton.mp ho]; exact houter, List.pairwise_singleton ..⟩
  inner := fun e he => by
    rw [List.mem_singleton.mp he]
    exact .scope kind h.level h.inner

end ArrangedAll

/-! ### Parts in order -/

section Parts

variable (R : ScopeKind × Span → ScopeKind × Span → Prop) (label : Label) (children : List Node)

/-- The scopes that a part opens next to each other. -/
def Part.opensBeside (children : List Node) (part : Part) : List (ScopeKind × Span) :=
  openingsBeside (part.entries (.ofChildren children))

/-- **Parts that stand in order**, each for itself and one behind the other. -/
structure Part.Arranged (parts : List Part) : Prop where
  each : ∀ part ∈ parts, ArrangedAll R label.span (part.entries (.ofChildren children))
  order : parts.Pairwise fun p q =>
    ∀ o ∈ p.opensBeside children, ∀ o' ∈ q.opensBeside children, R o o'

/-- Parts that open scopes within the first child in a field only. -/
structure Part.InField (f : Field) (parts : List Part) : Prop where
  arranged : Part.Arranged R label children parts
  within : ∀ part ∈ parts, ∀ o ∈ part.opensBeside children,
    ∃ c, Node.childInField? f children = some c ∧ c.label.span.Encloses o.2

end Parts

section Parts

variable {label : Label} {children : List Node}

namespace Part

theorem mem_openingsBeside {below : Below} {o : ScopeKind × Span} {parts : List Part} :
    o ∈ openingsBeside (entriesAll below parts) ↔
      ∃ part ∈ parts, o ∈ openingsBeside (part.entries below) := by
  induction parts with
  | nil => simp [entriesAll]
  | cons part rest ih =>
    rw [entriesAll, openingsBeside_append, List.mem_append, ih, List.exists_mem_cons_iff]

/-- A part that is an entry and opens no scope. -/
def Plain (part : Part) : Prop := ∃ e, part = .entry e ∧ e.opening? = none

theorem plain_of_map {α : Type} {f : α → Entry} (xs : List α) (h : ∀ x, (f x).opening? = none) :
    ∀ part ∈ xs.map fun x => entry (f x), part.Plain := by
  intro part hpart
  obtain ⟨x, _, rfl⟩ := List.mem_map.mp hpart
  exact ⟨f x, rfl, h x⟩

theorem Plain.opensBeside {part : Part} (h : part.Plain) (children : List Node) :
    part.opensBeside children = [] := by
  obtain ⟨e, rfl, he⟩ := h
  exact List.filterMap_cons_none he

namespace Arranged

variable {ps qs : List Part}

theorem nil : Part.Arranged R label children [] := ⟨by simp, .nil⟩

theorem single {part : Part}
    (h : ArrangedAll R label.span (part.entries (.ofChildren children))) :
    Part.Arranged R label children [part] :=
  ⟨List.forall_mem_singleton.mpr h, List.pairwise_singleton ..⟩

theorem append (hp : Part.Arranged R label children ps) (hq : Part.Arranged R label children qs)
    (hbefore : ∀ p ∈ ps, ∀ q ∈ qs, ∀ o ∈ p.opensBeside children, ∀ o' ∈ q.opensBeside children,
      R o o') : Part.Arranged R label children (ps ++ qs) where
  each := fun part hpart => (List.mem_append.mp hpart).elim (hp.each part) (hq.each part)
  order := List.pairwise_append.mpr ⟨hp.order, hq.order, hbefore⟩

/-- Entries that open no scopes. -/
theorem plain (h : ∀ part ∈ ps, part.Plain) : Part.Arranged R label children ps where
  each := by
    intro part hpart
    obtain ⟨e, rfl, he⟩ := h part hpart
    exact .of_none (List.forall_mem_singleton.mpr he)
  order := by
    refine List.pairwise_of_forall_mem_list fun part hpart _ _ o ho => ?_
    rw [(h part hpart).opensBeside children] at ho
    exact absurd ho List.not_mem_nil

/-- Entries that open no scopes may stand in front. -/
theorem plain_append (hp : ∀ part ∈ ps, part.Plain) (hq : Part.Arranged R label children qs) :
    Part.Arranged R label children (ps ++ qs) := by
  refine (plain hp).append hq fun part hpart _ _ o ho => ?_
  rw [(hp part hpart).opensBeside children] at ho
  exact absurd ho List.not_mem_nil

/-- Entries that open no scopes may stand behind. -/
theorem append_plain (hp : Part.Arranged R label children ps) (hq : ∀ part ∈ qs, part.Plain) :
    Part.Arranged R label children (ps ++ qs) := by
  refine hp.append (plain hq) fun _ _ part hpart _ _ o ho => ?_
  rw [(hq part hpart).opensBeside children] at ho
  exact absurd ho List.not_mem_nil

/-- **What parts in order contribute stands in order.** -/
theorem entriesAll (h : Part.Arranged R label children ps) :
    ArrangedAll R label.span (Part.entriesAll (.ofChildren children) ps) := by
  obtain ⟨each, order⟩ := h
  induction ps with
  | nil => exact .nil _
  | cons part rest ih =>
    obtain ⟨hfirst, horder⟩ := List.pairwise_cons.mp order
    rw [Part.entriesAll]
    refine (each part (List.mem_cons_self ..)).append
      (ih (fun q hq => each q (List.mem_cons_of_mem _ hq)) horder) ?_
    intro o ho o' ho'
    obtain ⟨q, hq, ho'⟩ := mem_openingsBeside.mp ho'
    exact hfirst q hq o ho o' ho'

/-- A scope over the whole range of a node. -/
theorem scope (hspan : label.span.start ≤ label.span.stop) (kind : ScopeKind)
    (h : Part.Arranged R label children ps) :
    Part.Arranged R label children [.scope kind label.span ps] :=
  single (h.entriesAll.scope kind ⟨Nat.le_refl _, hspan, Nat.le_refl _⟩)

end Arranged

end Part

end Parts

/-! ### Lists of nodes in order -/

section Lists

variable {role : Role} {nodes : List Node} {span : Span}

/-- What named children open is opened by one of them. -/
theorem exists_child_of_named {o : ScopeKind × Span}
    (ho : o ∈ openingsBeside (outlineNamed role nodes)) :
    ∃ c ∈ nodes, o ∈ openingsBeside (c.outline role) := by
  obtain ⟨e, he, hopen⟩ := List.mem_filterMap.mp ho
  obtain ⟨c, hc, he⟩ := exists_of_mem_outlineNamed he
  exact ⟨c, hc, List.mem_filterMap.mpr ⟨e, he, hopen⟩⟩

/-- Named nodes that stand behind each other contribute in order. -/
theorem outlineNamed_arranged (hR : FollowsText R)
    (below : ∀ c ∈ nodes, ArrangedAll R c.label.span (c.outline role))
    (within : ∀ c ∈ nodes, span.Encloses c.label.span)
    (order : nodes.Pairwise fun c d => c.label.span.stop ≤ d.label.span.start) :
    ArrangedAll R span (outlineNamed role nodes) := by
  induction nodes with
  | nil => exact .nil span
  | cons c rest ih =>
    obtain ⟨hfirst, horder⟩ := List.pairwise_cons.mp order
    have hc := below c (List.mem_cons_self ..)
    have hrest := ih (fun d hd => below d (List.mem_cons_of_mem _ hd))
      (fun d hd => within d (List.mem_cons_of_mem _ hd)) horder
    rw [outlineNamed]
    split
    · refine (hc.mono (within c (List.mem_cons_self ..))).append hrest ?_
      intro o ho o' ho'
      obtain ⟨d, hd, ho'⟩ := exists_child_of_named ho'
      have hin := hc.level.within o ho
      have hin' := (below d (List.mem_cons_of_mem _ hd)).level.within o' ho'
      exact hR o o' hin.proper hin'.proper
        (Nat.le_trans hin.stop (Nat.le_trans (hfirst d hd) hin'.start))
    · exact hrest

theorem outlineLater_arranged (hR : FollowsText R)
    (below : ∀ c ∈ nodes, ArrangedAll R c.label.span (c.outline role))
    (within : ∀ c ∈ nodes, span.Encloses c.label.span)
    (order : nodes.Pairwise fun c d => c.label.span.stop ≤ d.label.span.start) :
    ArrangedAll R span (outlineLater role nodes) := by
  induction nodes with
  | nil => exact .nil span
  | cons c rest ih =>
    obtain ⟨_, horder⟩ := List.pairwise_cons.mp order
    have below' := fun d hd => below d (List.mem_cons_of_mem c hd)
    have within' := fun d hd => within d (List.mem_cons_of_mem c hd)
    rw [outlineLater]
    split
    · exact outlineNamed_arranged hR below' within' horder
    · exact ih below' within' horder

end Lists

/-! ### Plans in order -/

/-- **A node that is met in order**: it has its children in order, and what they contribute is in
order. -/
structure MetInOrder (R : ScopeKind × Span → ScopeKind × Span → Prop) (label : Label)
    (children : List Node) : Prop where
  follows : FollowsText R
  ordered : (Node.node label children).Ordered
  reading : InReadingOrder label children
  early : EarlyBy R label children
  below : ∀ c ∈ children, ∀ role : Role, ArrangedAll R c.label.span (c.outline role)

namespace MetInOrder

variable {label : Label} {children : List Node} (h : MetInOrder R label children)

include h

theorem proper : label.span.start ≤ label.span.stop := by
  cases h.ordered with
  | node span _ _ _ => exact span

theorem order : children.Pairwise fun c d => c.label.span.stop ≤ d.label.span.start := by
  cases h.ordered with
  | node _ _ order _ => exact order

theorem encloses {c : Node} (hc : c ∈ children) : label.span.Encloses c.label.span := by
  cases h.ordered with
  | node _ within _ below =>
    obtain ⟨hstart, hstop⟩ := within c hc
    cases below c hc with
    | node span _ _ _ => exact ⟨hstart, span, hstop⟩

theorem named (role : Role) : Part.Arranged R label children [.named role] :=
  .single (outlineNamed_arranged h.follows (fun c hc => h.below c hc role) (fun _ => h.encloses)
    h.order)

theorem laterNamed (role : Role) : Part.Arranged R label children [.laterNamed role] :=
  .single (outlineLater_arranged h.follows (fun c hc => h.below c hc role) (fun _ => h.encloses)
    h.order)

/-- A scope over the whole range, for nodes in order. -/
theorem scope {ps : List Part} (kind : ScopeKind) (hps : Part.Arranged R label children ps) :
    Part.Arranged R label children [.scope kind label.span ps] :=
  hps.scope h.proper kind

/-! #### Fields -/

/-- The first child in a field, in a role. -/
theorem field (f : Field) (role : Role) : Part.InField R label children f [.field f role] := by
  have hentries : (Part.field f role).entries (.ofChildren children) =
      ((Node.childInField? f children).map (Node.outline role)).getD [] :=
    outlineField_eq f role children
  cases hchild : Node.childInField? f children with
  | none =>
    rw [hchild] at hentries
    refine ⟨.single (hentries ▸ .nil _), List.forall_mem_singleton.mpr fun o ho => ?_⟩
    rw [Part.opensBeside, hentries] at ho
    exact absurd ho List.not_mem_nil
  | some c =>
    have hc := Node.mem_of_childInField? hchild
    have hentries : (Part.field f role).entries (.ofChildren children) = c.outline role := by
      rw [hentries, hchild]
      rfl
    refine ⟨.single ?_, List.forall_mem_singleton.mpr fun o ho => ⟨c, hchild, ?_⟩⟩
    · rw [hentries]
      exact (h.below c hc role).mono (h.encloses hc)
    · rw [Part.opensBeside, hentries] at ho
      exact (h.below c hc role).level.within o ho

theorem computedKey (place : Field) :
    Part.InField R label children place (Part.computedKey place children) := by
  rw [Part.computedKey]
  split
  · exact h.field place .code
  · exact ⟨.nil, by simp⟩

theorem scopeOverField (kind : ScopeKind) (f : Field) (role : Role) :
    Part.InField R label children f (Part.scopeOverField kind f role children) := by
  rw [Part.scopeOverField, Node.inField?_eq]
  cases hchild : Node.childInField? f children with
  | none => exact ⟨.nil, by simp⟩
  | some c =>
    have hc := Node.mem_of_childInField? hchild
    have hfield := h.field f role
    have hentries : Part.entriesAll (.ofChildren children) [.field f role] = c.outline role := by
      rw [Part.entriesAll, Part.entriesAll, List.append_nil]
      show outlineField f role children = _
      rw [outlineField_eq, hchild]
      rfl
    have hscope : ArrangedAll R label.span
        ((Part.scope kind c.label.span [.field f role]).entries (.ofChildren children)) := by
      rw [Part.entries, hentries]
      exact (h.below c hc role).scope kind (h.encloses hc)
    refine ⟨.single hscope, List.forall_mem_singleton.mpr fun o ho => ⟨c, hchild, ?_⟩⟩
    rw [List.mem_singleton.mp (show o ∈ [(kind, c.label.span)] from ho)]
    exact ⟨Nat.le_refl _, (h.encloses hc).proper, Nat.le_refl _⟩

/-- **Fields that are read in turn**: what is read in each stands in order. -/
theorem inTurn (groups : List (Field × List Part))
    (hgroups : ∀ g ∈ groups, Part.InField R label children g.1 g.2)
    (hsub : (groups.map Prod.fst).Sublist (fieldsInTurn label.kind children)) :
    Part.Arranged R label children (groups.flatMap Prod.snd) := by
  have hturn := h.reading.fields.sublist hsub
  rw [List.pairwise_map] at hturn
  clear hsub
  induction groups with
  | nil => exact .nil
  | cons g rest ih =>
    -- What the first field opens ends in its child, and the others start behind that.
    obtain ⟨hfirst, hrest⟩ := List.pairwise_cons.mp hturn
    have hg := hgroups g (List.mem_cons_self ..)
    have hothers := fun g' hg' => hgroups g' (List.mem_cons_of_mem _ hg')
    rw [List.flatMap_cons]
    refine hg.arranged.append (ih hothers hrest) ?_
    intro p hp q hq o ho o' ho'
    obtain ⟨g', hg', hq⟩ := List.mem_flatMap.mp hq
    obtain ⟨c, hc, hin⟩ := hg.within p hp o ho
    obtain ⟨d, hd, hin'⟩ := (hothers g' hg').within q hq o' ho'
    exact h.follows o o' hin.proper hin'.proper
      (Nat.le_trans hin.stop (Nat.le_trans (hfirst g' hg' c d hc hd) hin'.start))

/-- First children in fields that are read in turn, each in a role. -/
theorem fields (fs : List (Field × Role))
    (hsub : (fs.map Prod.fst).Sublist (fieldsInTurn label.kind children)) :
    Part.Arranged R label children (fs.map fun p => .field p.1 p.2) := by
  have hturn := h.inTurn (fs.map fun p => (p.1, [.field p.1 p.2])) ?_ ?_
  · rw [List.flatMap_map] at hturn
    rw [List.map_eq_flatMap]
    exact hturn
  · intro g hg
    obtain ⟨p, _, rfl⟩ := List.mem_map.mp hg
    exact h.field p.1 p.2
  · rw [List.map_map]
    exact hsub

/-! #### Decorators -/

omit h in
/-- Only a decorator opens scopes as a decorator. -/
theorem kind_of_decorator {c : Node} {o : ScopeKind × Span}
    (ho : o ∈ openingsBeside (c.outline .decorator)) : c.label.kind = .decorator := by
  by_contra hkind
  obtain ⟨l, cs⟩ := c
  have hplan : plan .decorator l cs = [] := if_neg hkind
  rw [outline_node, hplan] at ho
  exact absurd ho List.not_mem_nil

/-- Decorators, and behind them fields that are read in turn. -/
theorem decorators_append (groups : List (Field × List Part))
    (hdecorators : label.kind.takesDecorators = true)
    (hgroups : ∀ g ∈ groups, Part.InField R label children g.1 g.2)
    (hsub : (groups.map Prod.fst).Sublist (fieldsInTurn label.kind children)) :
    Part.Arranged R label children ([.named .decorator] ++ groups.flatMap Prod.snd) := by
  refine (h.named .decorator).append (h.inTurn groups hgroups hsub) ?_
  intro p hp q hq o ho o' ho'
  obtain rfl := List.mem_singleton.mp hp
  obtain ⟨g, hg, hq⟩ := List.mem_flatMap.mp hq
  obtain ⟨d, hd, hin'⟩ := (hgroups g hg).within q hq o' ho'
  obtain ⟨c, hc, ho⟩ := exists_child_of_named ho
  have hin := (h.below c hc .decorator).level.within o ho
  have hfield := hsub.subset (List.mem_map_of_mem hg)
  have hstop := h.reading.decorators hdecorators c hc (kind_of_decorator ho) g.1 hfield d hd
  exact h.follows o o' hin.proper hin'.proper
    (Nat.le_trans hin.stop (Nat.le_trans hstop hin'.start))

/-- **The scope of a class or a method behind what is met before it.** -/
theorem append_covering {ps inner : List Part} (hps : Part.Arranged R label children ps)
    (hearly : Part.entriesAll (.ofChildren children) ps = earlyEntries label children)
    (hinner : Part.Arranged R label children inner) :
    Part.Arranged R label children (ps ++ [.scope (coveringKind label.kind) label.span inner]) := by
  refine hps.append (h.scope _ hinner) ?_
  intro p hp q hq o ho o' ho'
  obtain rfl := List.mem_singleton.mp hq
  rw [List.mem_singleton.mp (show o' ∈ [(coveringKind label.kind, label.span)] from ho')]
  have hmem : o ∈ openingsBeside (earlyEntries label children) := by
    rw [← hearly]
    exact Part.mem_openingsBeside.mpr ⟨p, hp, ho⟩
  exact h.early o hmem ((hps.each p hp).level.within o ho)

/-! #### Constructs -/

omit h in
theorem fieldsInTurn_forIn (hkind : label.kind = .forInStatement) :
    fieldsInTurn label.kind children =
      if headKeyword? children = some .byVar then [.left, .value, .right, .body]
      else [.left, .right, .body] := by
  rw [hkind]
  rfl

theorem exists_function (hkind : label.kind.isFunction = true) :
    ∃ inner, Part.function label.span children = .scope .function label.span inner ∧
      Part.Arranged R label children inner := by
  obtain ⟨role, hparameters⟩ : ∃ role, (if (Node.inField? .parameters children).isSome then
      Part.field .parameters .parameters
      else .field .parameter (.binding .parameter false)) =
        .field (parametersField children) role := by
    unfold parametersField
    split
    · exact ⟨_, rfl⟩
    · exact ⟨_, rfl⟩
  obtain ⟨role', hbody⟩ : ∃ role', Part.sharedBody children = .field .body role' := by
    unfold Part.sharedBody
    split
    · exact ⟨_, rfl⟩
    · exact ⟨_, rfl⟩
  refine ⟨[.field (parametersField children) role, .field .body role'], ?_, ?_⟩
  · rw [Part.function, hparameters, hbody]
  · refine h.fields [(parametersField children, role), (.body, role')] ?_
    cases hlabel : label.kind <;> rw [hlabel] at hkind <;>
      first
      | exact Bool.noConfusion hkind
      | exact .refl _
      | exact List.sublist_cons_self ..

theorem function (hkind : label.kind.isFunction = true) :
    Part.Arranged R label children [Part.function label.span children] := by
  obtain ⟨inner, hfunction, hinner⟩ := h.exists_function hkind
  rw [hfunction]
  exact h.scope .function hinner

theorem assignedPattern : Part.Arranged R label children (Part.assignedPattern children) := by
  refine Part.Arranged.plain_append (fun part hpart => ?_) (h.named .pattern)
  obtain ⟨e, he, rfl⟩ := List.mem_map.mp hpart
  obtain ⟨name, _, rfl⟩ := List.mem_map.mp he
  exact ⟨_, rfl, rfl⟩

omit h in
theorem definitionInField_append (kind : DefinitionKind) (f : Field) {ps : List Part}
    (hps : Part.Arranged R label children ps) :
    Part.Arranged R label children (Part.definitionInField kind f children ++ ps) := by
  rw [Part.definitionInField]
  cases Node.inField? f children with
  | none => exact hps
  | some name =>
    exact Part.Arranged.plain_append (List.forall_mem_singleton.mpr ⟨_, rfl, rfl⟩) hps

/-- **A statement or an expression contributes in order.** -/
theorem codePlan : Part.Arranged R label children (codePlan label children) := by
  have hform := codePlan_form label children
  generalize ScopeLint.codePlan label children = parts at hform
  cases hform with
  | name => exact Part.Arranged.plain (List.forall_mem_singleton.mpr ⟨_, rfl, rfl⟩)
  | silent => exact .nil
  | declaration _ keyword => exact h.named (.declarator keyword)
  | functionDeclaration hkind =>
    refine definitionInField_append .functionName .name (h.function ?_)
    rcases hkind with hkind | hkind <;> rw [hkind] <;> rfl
  | namedFunction hkind name =>
    exact h.scope .functionExpressionName (Part.Arranged.plain_append
      (List.forall_mem_singleton.mpr ⟨.definition name .functionName, rfl, rfl⟩)
      (h.function (Kind.functionExpression_cases hkind).2.1))
  | function hkind =>
    refine h.function ?_
    rcases hkind with hkind | ⟨hkind, _⟩
    · rw [hkind]
      rfl
    · exact (Kind.functionExpression_cases hkind).2.1
  | method hkind =>
    -- Decorators and name stand in order among themselves, but the scope covers them.
    obtain ⟨inner, hfunction, hinner⟩ := h.exists_function (by rw [hkind]; rfl)
    have hfirst : Part.Arranged R label children
        ([.named .decorator] ++ Part.computedKey .name children) := by
      have hkey := h.decorators_append [(.name, Part.computedKey .name children)]
        (by rw [hkind]; rfl) (List.forall_mem_singleton.mpr (h.computedKey .name))
        (by rw [hkind]; exact List.singleton_sublist.mpr (List.mem_cons_self ..))
      simpa using hkey
    have hcovering : coveringKind label.kind = .function := by rw [hkind]; rfl
    rw [hfunction, ← hcovering]
    refine h.append_covering hfirst ?_ hinner
    rw [earlyEntries, hkind]
    rfl
  | classDeclaration hkind =>
    refine definitionInField_append .className .name ?_
    have hcovering : coveringKind label.kind = .classBody := by rw [hkind]; rfl
    rw [Part.classScope, ← hcovering]
    refine h.append_covering (h.named .decorator) ?_ (h.named .classPart)
    rw [earlyEntries, hkind]
    exact List.append_nil _
  | classExpression hkind =>
    have hcovering : coveringKind label.kind = .classBody := by rw [hkind]; rfl
    rw [Part.classScope, ← hcovering]
    refine h.append_covering (h.named .decorator) ?_
      (definitionInField_append .className .name (h.named .classPart))
    rw [earlyEntries, hkind]
    exact List.append_nil _
  | classField hkind =>
    have hfields := h.decorators_append
      [(.property, Part.computedKey .property children),
        (.value, Part.scopeOverField .classFieldInitializer .value .code children)]
      (by rw [hkind]; rfl) (by simp [h.computedKey, h.scopeOverField])
      (by rw [hkind]; exact .refl _)
    simpa using hfields
  | staticBlock => exact h.scope .classStaticBlock (h.field .body .contents).arranged
  | looseStaticBlock => exact h.scope .classStaticBlock (h.named .code)
  | enclosed _ kind => exact h.scope kind (h.named .code)
  | forVar hkind hhead =>
    refine h.fields [(.left, _), (.value, _), (.right, _), (.body, _)] ?_
    rw [fieldsInTurn_forIn hkind, if_pos hhead]
    exact .refl _
  | forLexical hkind keyword hhead =>
    refine h.scope .forLoop (h.fields [(.left, _), (.right, _), (.body, _)] ?_)
    rw [fieldsInTurn_forIn hkind, if_neg hhead]
    exact .refl _
  | forTarget hkind hhead =>
    refine h.fields [(.left, _), (.right, _), (.body, _)] ?_
    rw [fieldsInTurn_forIn hkind, if_neg hhead]
    exact .refl _
  | catchClause hkind =>
    refine h.scope .catchClause (h.fields [(.parameter, _), (.body, _)] ?_)
    rw [hkind]
    exact .refl _
  | switchStatement hkind =>
    have hfields := h.inTurn
      [(.value, [.field .value .code]),
        (.body, Part.scopeOverField .switchBody .body .contents children)]
      (by simp [h.field, h.scopeOverField]) (by rw [hkind]; exact .refl _)
    simpa using hfields
  | withStatement hkind =>
    have hfields := h.inTurn
      [(.object, [.field .object .code]),
        (.body, Part.scopeOverField .withBody .body .code children)]
      (by simp [h.field, h.scopeOverField]) (by rw [hkind]; exact .refl _)
    simpa using hfields
  | assignment hkind | augmented hkind =>
    refine h.fields [(.left, _), (.right, _)] ?_
    rw [hkind]
    exact .refl _
  | update => exact (h.field .argument .updated).arranged
  | assignedPattern => exact h.assignedPattern
  | importStatement =>
    exact Part.Arranged.plain (Part.plain_of_map _ fun _ => rfl)
  | reexport hkind =>
    exact h.decorators_append
      [(.declaration, [.field .declaration .code]), (.value, [.field .value .code])]
      (by rw [hkind]; rfl) (by simp [h.field]) (by rw [hkind]; exact .refl _)
  | exportStatement hkind =>
    have hfields := h.decorators_append
      [(.declaration, [.field .declaration .code]), (.value, [.field .value .code])]
      (by rw [hkind]; rfl) (by simp [h.field]) (by rw [hkind]; exact .refl _)
    exact hfields.append_plain (Part.plain_of_map _ fun _ => rfl)
  | tag => exact h.named _
  | tagAttribute => exact h.laterNamed .code
  | ordinary => exact h.named .code

/-- **The code inside a pattern contributes in order.** -/
theorem patternPlan : Part.Arranged R label children (patternPlan label children) := by
  have hform := patternPlan_form label children
  generalize ScopeLint.patternPlan label children = parts at hform
  cases hform with
  | name | comment => exact .nil
  | list => exact h.named .pattern
  | pair hkind =>
    have hturn := h.inTurn
      [(.key, Part.computedKey .key children), (.value, [.field .value .pattern])]
      (by simp [h.computedKey, h.field])
      (by rcases hkind with hkind | hkind <;> rw [hkind] <;> exact .refl _)
    simpa using hturn
  | default hkind =>
    refine h.fields [(.left, _), (.right, _)] ?_
    cases hlabel : label.kind <;> rw [hlabel] at hkind <;>
      first
      | exact Bool.noConfusion hkind
      | exact .refl _
  | code => exact h.codePlan

theorem bindingPlan (kind : DefinitionKind) (init : Bool) :
    Part.Arranged R label children (bindingPlan kind init label children) := by
  refine Part.Arranged.plain_append (fun part hpart => ?_) h.patternPlan
  obtain ⟨e, he, rfl⟩ := List.mem_map.mp hpart
  obtain ⟨⟨name, underDefault⟩, _, he⟩ := List.mem_flatMap.mp he
  rcases List.mem_cons.mp he with rfl | he
  · exact ⟨_, rfl, rfl⟩
  · split at he
    · exact ⟨_, rfl, List.mem_singleton.mp he ▸ rfl⟩
    · exact absurd he List.not_mem_nil

/-- **A node contributes in order**, in whatever role. -/
theorem plan (role : Role) : Part.Arranged R label children (plan role label children) := by
  cases role with
  | code => exact h.codePlan
  | contents => exact h.named .code
  | parameters => exact h.named .parameter
  | pattern => exact h.patternPlan
  | binding kind init => exact h.bindingPlan kind init
  | target =>
    have hform := targetPlan_form label children
    generalize ScopeLint.plan .target label children = parts at hform
    cases hform with
    | name => exact .plain (List.forall_mem_singleton.mpr ⟨_, rfl, rfl⟩)
    | parenthesized => exact h.named .target
    | pattern => exact h.assignedPattern
    | code => exact h.codePlan
  | updated =>
    have hform := updatedPlan_form label children
    generalize ScopeLint.plan .updated label children = parts at hform
    cases hform with
    | name => exact .plain (List.forall_mem_singleton.mpr ⟨_, rfl, rfl⟩)
    | parenthesized => exact h.named .updated
    | code => exact h.codePlan
  | declarator keyword =>
    rw [ScopeLint.plan]
    split
    case isTrue hkind =>
      refine h.fields [(.name, _), (.value, _)] ?_
      rw [hkind]
      exact .refl _
    case isFalse => exact .nil
  | parameter =>
    rw [ScopeLint.plan]
    split
    · exact .nil
    · exact h.bindingPlan .parameter false
  | decorator | classPart =>
    rw [ScopeLint.plan]
    split
    · exact h.named .code
    · exact .nil
  | tagPart name =>
    rw [ScopeLint.plan]
    split
    · exact .nil
    · exact h.codePlan

end MetInOrder

/-! ### Outlines in order -/

section Outlines

variable {root : Node}

/-- What is met early in the classes and methods below a node stands as the relation says. -/
def Syntax.Node.EarlyBy (R : ScopeKind × Span → ScopeKind × Span → Prop) (root : Node) : Prop :=
  ∀ node, root.Holds node → ScopeLint.EarlyBy R node.label node.children

mutual

/-- **The outline of a node stands in order**, if its text does. -/
theorem outline_arranged (hR : FollowsText R) :
    ∀ node : Node, node.Ordered → node.InReadingOrder → node.EarlyBy R →
      ∀ role : Role, ArrangedAll R node.label.span (node.outline role)
  | .node label children, hordered, hreading, hearly, role => by
      have hchildren : ∀ c ∈ children, c.Ordered := by
        cases hordered with
        | node _ _ _ below => exact below
      have hmet : MetInOrder R label children :=
        { follows := hR
          ordered := hordered
          reading := hreading _ (.self _)
          early := hearly _ (.self _)
          below := outlines_arranged hR children hchildren
            (fun _ hc _ hn => hreading _ (.child hc hn))
            (fun _ hc _ hn => hearly _ (.child hc hn)) }
      rw [outline_node]
      exact (hmet.plan role).entriesAll

theorem outlines_arranged (hR : FollowsText R) :
    ∀ nodes : List Node, (∀ c ∈ nodes, c.Ordered) → (∀ c ∈ nodes, c.InReadingOrder) →
      (∀ c ∈ nodes, c.EarlyBy R) →
      ∀ c ∈ nodes, ∀ role : Role, ArrangedAll R c.label.span (c.outline role)
  | [], _, _, _, _, hc => absurd hc List.not_mem_nil
  | child :: rest, hordered, hreading, hearly, c, hc => by
      intro role
      rcases List.mem_cons.mp hc with hfirst | hc
      · rw [hfirst]
        exact outline_arranged hR child (hordered child (List.mem_cons_self ..))
          (hreading child (List.mem_cons_self ..)) (hearly child (List.mem_cons_self ..)) role
      · exact outlines_arranged hR rest (fun d hd => hordered d (List.mem_cons_of_mem _ hd))
          (fun d hd => hreading d (List.mem_cons_of_mem _ hd))
          (fun d hd => hearly d (List.mem_cons_of_mem _ hd)) c hc role

end

end Outlines

end ScopeLint
