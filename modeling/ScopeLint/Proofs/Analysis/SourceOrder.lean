import ScopeLint.Proofs.Walk.Levels

/-! # Scopes in the order of the text

When the ranges of a syntax tree are nested, and children stand in the order in which they are
read, every scope lies within its parent, and of two scopes in one scope the one listed first ends
before the other starts (`scopes_in_source_order`).

This fails for the scopes that are met before the scope of the node around them is opened: those in
the decorators of a class or a method and in the computed name of a method.  They stand outside
that scope, beside it, and are listed before it, although its range starts before theirs
(`scopes_out_of_order`).
-/

namespace ScopeLint

open Syntax

/-- A scope ends before another starts, or it is met early in the class or the method of the
other. -/
def ListedBefore (root : Node) (o o' : ScopeKind × Span) : Prop :=
  o.2.stop ≤ o'.2.start ∨
    ∃ node, root.Holds node ∧ o' = (coveringKind node.label.kind, node.label.span) ∧
      o ∈ openingsBeside (earlyEntries node.label node.children) ∧ o'.2.Encloses o.2

namespace ScopeTree

/-- **Every scope lies within its parent.** -/
def Nested (t : ScopeTree) : Prop :=
  ∀ s ∈ t.scopes, ∀ p, s.parent = some p →
    ∃ outer, t.scope? p = some outer ∧ outer.span.Encloses s.span

/-- **A relation holds between the scopes in each scope**, from one to those listed behind it. -/
def ChildrenBy (R : ScopeKind × Span → ScopeKind × Span → Prop) (t : ScopeTree) : Prop :=
  ∀ s ∈ t.scopes, s.children.Pairwise fun a b =>
    ∃ sa sb, t.scope? a = some sa ∧ t.scope? b = some sb ∧ R (sa.kind, sa.span) (sb.kind, sb.span)

/-- The scopes in each scope are listed by where they start. -/
def StartsInOrder (t : ScopeTree) : Prop := t.ChildrenBy fun o o' => o.2.start ≤ o'.2.start

variable {R : ScopeKind × Span → ScopeKind × Span → Prop} {t : ScopeTree}

section Levels

variable (hformed : t.Formed) (hlevels : ∀ l ∈ t.levels, ScopeLevel R l.1 l.2)

theorem getElem?_openings {id : Nat} {s : Scope} (hs : t.scope? id = some s) :
    t.openings[id]? = some (s.kind, s.span) := by
  rw [openings, List.getElem?_map, show t.scopes[id]? = some s from hs]
  rfl

include hlevels in
theorem level_of_mem {s : Scope} (hs : s ∈ t.scopes) : ScopeLevel R s.span (t.openingsIn s) :=
  hlevels (s.span, t.openingsIn s) (List.mem_map_of_mem hs)

include hformed hlevels

/-- Where each level lies within its scope the scopes are nested. -/
theorem Formed.nested : t.Nested := by
  intro s hs p hp
  have hchild := hformed.scope?_of_mem hs
  have hparent : t.parent? s.id = some p := by
    rw [parent?, hchild]
    exact hp
  obtain ⟨outer, houter⟩ :=
    scope?_isSome (Nat.lt_trans (hformed.parent_lt _ _ hparent) (lt_of_parent hparent))
  have hlevel := level_of_mem hlevels (List.mem_of_getElem? houter)
  refine ⟨outer, houter, hlevel.within (s.kind, s.span) ?_⟩
  have hmem : s.id ∈ outer.children :=
    childrenOf_of_scope houter ▸ hformed.mem_childrenOf.mpr hparent
  exact List.mem_filterMap.mpr ⟨s.id, hmem, getElem?_openings hchild⟩

/-- Where each level is in order the children are. -/
theorem Formed.childrenBy : t.ChildrenBy R := by
  intro s hs
  have horder := List.pairwise_filterMap.mp (level_of_mem hlevels hs).order
  have hsome : ∀ child ∈ s.children, ∃ sc, t.scope? child = some sc := by
    intro child hchild
    have hmem := childrenOf_of_scope (hformed.scope?_of_mem hs) ▸ hchild
    exact scope?_isSome (lt_of_parent (hformed.mem_childrenOf.mp hmem))
  refine horder.imp_of_mem fun {a b} ha hb hR => ?_
  obtain ⟨sa, hsa⟩ := hsome a ha
  obtain ⟨sb, hsb⟩ := hsome b hb
  exact ⟨sa, sb, hsa, hsb, hR _ (getElem?_openings hsa) _ (getElem?_openings hsb)⟩

end Levels

end ScopeTree

/-- **The outline of a program stands in order**, within the range of its root. -/
theorem Syntax.Program.outline_arranged {R : ScopeKind × Span → ScopeKind × Span → Prop}
    (hR : FollowsText R) (program : Program) (hordered : program.root.Ordered)
    (hreading : program.root.InReadingOrder) (hearly : program.root.EarlyBy R) :
    ArrangedAll R program.root.label.span program.outline := by
  have hroot := ScopeLint.outline_arranged hR program.root hordered hreading hearly .contents
  have hspan := (hordered.within _ (Node.label_mem _)).2.1
  unfold outline
  cases program.sourceType with
  | script => exact hroot
  | module => exact hroot.scope .module ⟨Nat.le_refl _, hspan, Nat.le_refl _⟩

/-- **Each level of the scope tree of a program is in order.** -/
theorem analyze_level {R : ScopeKind × Span → ScopeKind × Span → Prop} (hR : FollowsText R)
    (program : Program) (hordered : program.root.Ordered)
    (hreading : program.root.InReadingOrder) (hearly : program.root.EarlyBy R) :
    ∀ l ∈ (analyze program).levels, ScopeLevel R l.1 l.2 := by
  have harranged := program.outline_arranged hR hordered hreading hearly
  rw [analyze_levels]
  exact List.forall_mem_cons.mpr ⟨harranged.level, harranged.levels⟩

/-- **Scopes lie in each other and are listed as the text has them**: of two scopes in one scope
the one listed first ends before the other starts, unless it is in a decorator of the class or the
method of the other, or in the computed name of the method.  So they are listed by where they stop,
and by where they start as well if no scope met early starts behind the class or the method. -/
theorem scopes_in_source_order (program : Program) (hordered : program.root.Ordered)
    (hreading : program.root.InReadingOrder) :
    (analyze program).Nested ∧ (analyze program).ChildrenBy (ListedBefore program.root) ∧
      (analyze program).ChildrenBy (fun o o' => o.2.stop ≤ o'.2.stop) ∧
      ((∀ node, program.root.Holds node →
          ∀ o ∈ openingsBeside (earlyEntries node.label node.children),
            o.2.start ≤ node.label.span.start) →
        (analyze program).StartsInOrder) := by
  have hformed := analyze_formed program
  have hlisted : ∀ l ∈ (analyze program).levels, ScopeLevel (ListedBefore program.root) l.1 l.2 :=
    analyze_level (fun _ _ _ _ h => .inl h) program hordered hreading
      fun node hnode _ ho hin => .inr ⟨node, hnode, rfl, ho, hin⟩
  have hstops : ∀ l ∈ (analyze program).levels,
      ScopeLevel (fun o o' => o.2.stop ≤ o'.2.stop) l.1 l.2 :=
    analyze_level (fun _ _ _ hproper h => Nat.le_trans h hproper) program hordered hreading
      fun _ _ _ _ hin => hin.stop
  refine ⟨hformed.nested hlisted, hformed.childrenBy hlisted, hformed.childrenBy hstops, ?_⟩
  intro hearly
  exact hformed.childrenBy (analyze_level (fun _ _ hproper _ h => Nat.le_trans hproper h) program
    hordered hreading fun node hnode o ho _ => hearly node hnode o ho)

namespace EarlyScope

/-- The function. -/
def function : Node :=
  .node (.onFirstLine 6 .arrowFunction 4 10 [])
    [.node (.onFirstLine 7 .identifier 4 5 [.parameter]) [],
      .node (.onFirstLine 8 .identifier 9 10 [.body]) []]

/-- The name. -/
def name : Node := .node (.onFirstLine 5 .computedPropertyName 3 11 [.name]) [function]

/-- The method. -/
def method : Node :=
  .node (.onFirstLine 4 .methodDefinition 3 16 [])
    [name, .node (.onFirstLine 9 Kind.parameterList 11 13 [.parameters]) [],
      .node (.onFirstLine 10 .statementBlock 14 16 [.body]) []]

/-- The whole tree. -/
def root : Node :=
  .node (.onFirstLine 0 .program 0 19 [])
    [.node (.onFirstLine 1 (.other "expression_statement") 0 19 [])
      [.node (.onFirstLine 2 .parenthesizedExpression 0 19 [])
        [.node (.onFirstLine 3 .object 1 18 []) [method]]]]

/-- Its program. -/
def program : Program := ⟨Source.ofText "({ [x => x]() {} })", root, .script⟩

/-- A tree of this program is in order if its root and its children are. -/
theorem node_ordered {l : Label} {children : List Node} (span : l.span.start ≤ l.span.stop)
    (within : ∀ c ∈ children, l.span.start ≤ c.label.span.start ∧ c.label.span.stop ≤ l.span.stop)
    (order : children.Pairwise fun c d => c.label.span.stop ≤ d.label.span.start)
    (reading : InReadingOrder l children) (below : ∀ c ∈ children, c.Ordered ∧ c.InReadingOrder) :
    (Node.node l children).Ordered ∧ (Node.node l children).InReadingOrder :=
  ⟨.node span within order fun c hc => (below c hc).1, .node reading fun c hc => (below c hc).2⟩

theorem leaf_ordered {l : Label} (span : l.span.start ≤ l.span.stop)
    (reading : InReadingOrder l []) : (Node.node l []).Ordered ∧ (Node.node l []).InReadingOrder :=
  node_ordered span (by simp) .nil reading (by simp)

theorem method_ordered : method.Ordered ∧ method.InReadingOrder := by
  have hfunction : function.Ordered ∧ function.InReadingOrder := by
    refine node_ordered (by decide) (by decide) (by decide) (by decide) ?_
    exact List.forall_mem_cons.mpr ⟨leaf_ordered (by decide) (by decide),
      List.forall_mem_singleton.mpr (leaf_ordered (by decide) (by decide))⟩
  have hname : name.Ordered ∧ name.InReadingOrder :=
    node_ordered (by decide) (by decide) (by decide) (by decide)
      (List.forall_mem_singleton.mpr hfunction)
  refine node_ordered (by decide) (by decide) (by decide) (by decide) ?_
  refine List.forall_mem_cons.mpr ⟨hname, List.forall_mem_cons.mpr ⟨?_, ?_⟩⟩
  · exact leaf_ordered (by decide) (by decide)
  · exact List.forall_mem_singleton.mpr (leaf_ordered (by decide) (by decide))

theorem program_ordered : program.root.Ordered ∧ program.root.InReadingOrder := by
  -- Around the method there is one node in the other.
  refine node_ordered (by decide) (by decide) (by decide) (by decide) ?_
  refine List.forall_mem_singleton.mpr ?_
  refine node_ordered (by decide) (by decide) (by decide) (by decide) ?_
  refine List.forall_mem_singleton.mpr ?_
  refine node_ordered (by decide) (by decide) (by decide) (by decide) ?_
  refine List.forall_mem_singleton.mpr ?_
  refine node_ordered (by decide) (by decide) (by decide) (by decide) ?_
  exact List.forall_mem_singleton.mpr method_ordered

end EarlyScope

/-- In `({ [x => x]() {} })` the function is listed before the method that lies around it. -/
theorem scopes_listed_around_method :
    EarlyScope.program.root.Ordered ∧ EarlyScope.program.root.InReadingOrder ∧
      (analyze EarlyScope.program).Nested ∧
      (analyze EarlyScope.program).ChildrenBy (ListedBefore EarlyScope.program.root) :=
  have hordered := EarlyScope.program_ordered
  have hscopes := scopes_in_source_order EarlyScope.program hordered.1 hordered.2
  ⟨hordered.1, hordered.2, hscopes.1, hscopes.2.1⟩

/-- **Scopes are not always listed by where they start**: in `({ [x => x]() {} })` the function
starts behind the method, and is listed before it. -/
theorem scopes_out_of_order :
    EarlyScope.program.root.Ordered ∧ EarlyScope.program.root.InReadingOrder ∧
      ¬ (analyze EarlyScope.program).StartsInOrder := by
  obtain ⟨hordered, hreading⟩ := EarlyScope.program_ordered
  refine ⟨hordered, hreading, fun hstarts => ?_⟩
  have hchildren : ∃ s ∈ (analyze EarlyScope.program).scopes, s.children = [1, 2] := by
    decide +kernel
  have hfunction : ((analyze EarlyScope.program).scope? 1).map (·.span.start) = some 4 := by
    decide +kernel
  have hmethod : ((analyze EarlyScope.program).scope? 2).map (·.span.start) = some 3 := by
    decide +kernel
  obtain ⟨s, hs, hlist⟩ := hchildren
  have hpair := hstarts s hs
  rw [hlist] at hpair
  obtain ⟨a, b, ha, hb, hle⟩ := List.rel_of_pairwise_cons hpair (List.mem_singleton_self 2)
  rw [ha] at hfunction
  rw [hb] at hmethod
  have hstart : a.span.start = 4 := Option.some.inj hfunction
  have hstart' : b.span.start = 3 := Option.some.inj hmethod
  rw [hstart, hstart'] at hle
  omega

end ScopeLint
