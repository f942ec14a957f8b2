import ScopeLint.Proofs.ScopeTree.Corresponding
import ScopeLint.Proofs.Walk.Run
import ScopeLint.Proofs.Outline.Mentions

/-! # Walks of corresponding outlines

Two outlines **correspond** when they differ in their labels only
(`Entry.Corresponds`).  If corresponding labels stand for identifiers that a faithful
relation relates, the walks of the two outlines go side by side: each step keeps the scope
trees and the waiting references in correspondence, so the finished trees correspond
(`analyze_corresponds`).
-/

namespace ScopeLint

open Syntax (Label Identifier Program)

/-- **Outlines that agree but for their labels**, which a relation relates. -/
inductive Entry.Corresponds (matched : Label → Label → Prop) : List Entry → List Entry → Prop
  | nil : Corresponds matched [] []
  | definition {name name' : Label} (kind : DefinitionKind) {rest rest' : List Entry} :
      matched name name' → Corresponds matched rest rest' →
        Corresponds matched (.definition name kind :: rest) (.definition name' kind :: rest')
  | reference {name name' : Label} (access : Access) (init : Bool) {rest rest' : List Entry} :
      matched name name' → Corresponds matched rest rest' →
        Corresponds matched (.reference name access init :: rest)
          (.reference name' access init :: rest')
  | scope (kind : ScopeKind) (span : Span) {entries entries' rest rest' : List Entry} :
      Corresponds matched entries entries' → Corresponds matched rest rest' →
        Corresponds matched (.scope kind span entries :: rest)
          (.scope kind span entries' :: rest')

/-- An outline whose first values follow their declarations corresponds to itself, by the
labels that it mentions. -/
theorem Entry.Paired.corresponds_self {es : List Entry} (h : Paired es) :
    ∀ {mentioned : Label → Prop}, (∀ l ∈ mentionsAll es, mentioned l) →
      Corresponds (fun l l' => l' = l ∧ mentioned l) es es := by
  induction h with
  | nil => intro _ _; exact .nil
  | definition name kind _ ih =>
    intro mentioned hall
    exact .definition kind ⟨rfl, hall _ (List.mem_cons_self ..)⟩
      (ih fun l hl => hall l (List.mem_cons_of_mem _ hl))
  | declaration name kind _ ih =>
    intro mentioned hall
    have hname : mentioned name := hall _ (List.mem_cons_self ..)
    exact .definition kind ⟨rfl, hname⟩ (.reference .write true ⟨rfl, hname⟩
      (ih fun l hl => hall l (List.mem_cons_of_mem _ hl)))
  | reference name access _ ih =>
    intro mentioned hall
    exact .reference access false ⟨rfl, hall _ (List.mem_cons_self ..)⟩
      (ih fun l hl => hall l (List.mem_cons_of_mem _ hl))
  | scope kind span _ _ ihin ih =>
    intro mentioned hall
    exact .scope kind span (ihin fun l hl => hall l (List.mem_append_left _ hl))
      (ih fun l hl => hall l (List.mem_append_right _ hl))

section Relations

variable (same : Identifier → Identifier → Prop)

/-- Open scopes at which corresponding references wait. -/
structure OpenScope.Corresponds (o o' : OpenScope) : Prop where
  id : o'.id = o.id
  waiting : List.Forall₂ (Reference.Corresponds same) o.waiting o'.waiting

/-- **States of two walks that agree but for the identifiers in them.** -/
structure Walk.Corresponds (w w' : Walk) : Prop where
  tree : w.tree.Corresponds same w'.tree
  stack : List.Forall₂ (OpenScope.Corresponds same) w.stack w'.stack

end Relations

variable {same : Identifier → Identifier → Prop}

namespace Walk

theorem corresponds_start (span : Span) : (start span).Corresponds same (start span) where
  tree := ScopeTree.corresponds_ofSpan span
  stack := .cons ⟨rfl, .nil⟩ .nil

variable {w w' : Walk} {r r' : Reference}

namespace Corresponds

/-! ### Steps -/

theorem current (h : w.Corresponds same w') : w'.current = w.current := by
  obtain ⟨tree, stack⟩ := w
  obtain ⟨tree', stack'⟩ := w'
  have hstack : List.Forall₂ (OpenScope.Corresponds same) stack stack' := h.stack
  cases hstack with
  | nil => rfl
  | cons htop _ => exact htop.id

theorem owner (h : w.Corresponds same w') (kind : DefinitionKind) :
    w'.owner kind = w.owner kind := by
  unfold Walk.owner
  rw [h.current, h.tree.variableScope?]

theorem wait (h : w.Corresponds same w') (hr : r.Corresponds same r') :
    (w.wait r).Corresponds same (w'.wait r') := by
  rw [wait_eq, wait_eq]
  refine ⟨h.tree, ?_⟩
  obtain ⟨tree, stack⟩ := w
  obtain ⟨tree', stack'⟩ := w'
  have hstack : List.Forall₂ (OpenScope.Corresponds same) stack stack' := h.stack
  cases hstack with
  | nil => exact .nil
  | cons htop hrest => exact .cons ⟨htop.id, forall₂_concat htop.waiting hr⟩ hrest

theorem define (hsame : Faithful same) (h : w.Corresponds same w') {source source' : Source}
    {l l' : Label} (hl : same (.ofLabel source l) (.ofLabel source' l')) (kind : DefinitionKind) :
    (w.define source l kind).Corresponds same (w'.define source' l' kind) where
  tree := by
    rw [define_eq, define_eq, h.owner kind]
    exact h.tree.define hsame _ ⟨hl, rfl⟩
  stack := h.stack

theorem refer (h : w.Corresponds same w') {source source' : Source} {l l' : Label}
    (hl : same (.ofLabel source l) (.ofLabel source' l')) (access : Access) (init : Bool) :
    (w.refer source l access init).Corresponds same (w'.refer source' l' access init) :=
  h.wait ⟨hl, rfl, rfl, h.current, rfl⟩

theorem enter (h : w.Corresponds same w') (kind : ScopeKind) (span : Span) :
    (w.enter kind span).Corresponds same (w'.enter kind span) where
  tree := by
    rw [Walk.enter, Walk.enter, h.current]
    exact h.tree.add w.current kind span
  stack := .cons ⟨h.tree.size, .nil⟩ h.stack

theorem settle (hsame : Faithful same) (h : w.Corresponds same w') (id : ScopeId)
    (hr : r.Corresponds same r') :
    (settle id w r).Corresponds same (Walk.settle id w' r') := by
  unfold Walk.settle
  rcases rel_cases (h.tree.rel_resolve? hsame id hr) with ⟨hnone, hnone'⟩ | ⟨t, t', ht, ht', htt⟩
  · rw [hnone, hnone']
    have hpassed : Walk.Corresponds same { w with tree := w.tree.pass id r }
        { w' with tree := w'.tree.pass id r' } :=
      ⟨h.tree.pass id hr, h.stack⟩
    exact hpassed.wait hr
  · rw [ht, ht']
    exact ⟨htt, h.stack⟩

theorem settleAll (hsame : Faithful same) (id : ScopeId) {rs rs' : List Reference}
    (hrs : List.Forall₂ (Reference.Corresponds same) rs rs') :
    ∀ {w w' : Walk}, w.Corresponds same w' →
      (rs.foldl (Walk.settle id) w).Corresponds same (rs'.foldl (Walk.settle id) w') := by
  induction hrs with
  | nil => exact fun h => h
  | cons hr _ ih =>
    intro w w' h
    exact ih (h.settle hsame id hr)

theorem leave (hsame : Faithful same) (h : w.Corresponds same w') :
    w.leave.Corresponds same w'.leave := by
  obtain ⟨tree, stack⟩ := w
  obtain ⟨tree', stack'⟩ := w'
  have htree : tree.Corresponds same tree' := h.tree
  have hstack : List.Forall₂ (OpenScope.Corresponds same) stack stack' := h.stack
  cases hstack with
  | nil => exact h
  | @cons top top' rest rest' htop hrest =>
    have hclosed : (Walk.mk tree rest).Corresponds same (Walk.mk tree' rest') := ⟨htree, hrest⟩
    unfold Walk.leave
    show Walk.Corresponds same (top.waiting.foldl (Walk.settle top.id) _)
      (top'.waiting.foldl (Walk.settle top'.id) _)
    rw [htop.id]
    exact settleAll hsame top.id htop.waiting hclosed

theorem leaveAll (hsame : Faithful same) : ∀ (n : Nat) {w w' : Walk}, w.Corresponds same w' →
    (w.leaveAll n).Corresponds same (w'.leaveAll n)
  | 0, _, _, h => h
  | n + 1, _, _, h => leaveAll hsame n (h.leave hsame)

theorem finish (hsame : Faithful same) (h : w.Corresponds same w') :
    w.finish.Corresponds same w'.finish := by
  unfold Walk.finish
  rw [← h.stack.length_eq]
  exact (leaveAll hsame w.stack.length h).tree

/-! ### Runs -/

/-- **Walks of corresponding outlines go side by side.** -/
theorem entries (hsame : Faithful same) {source source' : Source} {matched : Label → Label → Prop}
    (hmatched : ∀ l l', matched l l' → same (.ofLabel source l) (.ofLabel source' l'))
    {es es' : List Entry} (hes : Entry.Corresponds matched es es') :
    ∀ {w w' : Walk}, w.Corresponds same w' →
      (w.entries source es).Corresponds same (w'.entries source' es') := by
  induction hes with
  | nil => exact fun h => h
  | definition kind hname _ ih =>
    intro w w' h
    exact ih (h.define hsame (hmatched _ _ hname) kind)
  | reference access init hname _ ih =>
    intro w w' h
    exact ih (h.refer (hmatched _ _ hname) access init)
  | scope kind span _ _ ihin ih =>
    intro w w' h
    exact ih ((ihin (h.enter kind span)).leave hsame)

end Corresponds

end Walk

/-- **Programs with corresponding outlines have corresponding scope trees.** -/
theorem analyze_corresponds (hsame : Faithful same) {program program' : Program}
    (hspan : program'.root.label.span = program.root.label.span) {matched : Label → Label → Prop}
    (hmatched : ∀ l l', matched l l' →
      same (.ofLabel program.source l) (.ofLabel program'.source l'))
    (houtline : Entry.Corresponds matched program.outline program'.outline) :
    (analyze program).Corresponds same (analyze program') := by
  unfold analyze
  rw [hspan]
  exact ((Walk.corresponds_start _).entries hsame hmatched houtline).finish hsame

end ScopeLint
