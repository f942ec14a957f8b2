import Mathlib.Data.List.Forall2
import ScopeLint.Proofs.ScopeTree.Lookup
import ScopeLint.Scope.Inspection

/-! # Scope trees that agree but for their identifiers

Two scope trees **correspond** when they are equal scope by scope, binding by binding and
use by use, except that identifiers stand in a relation instead of being equal
(`ScopeTree.Corresponds`).  A binding has no node of its own; its name is that of an
identifier.

The operations on scopes look at identifiers in one way only: they compare names.  So they
keep the correspondence as long as the relation is **faithful**, that is, as long as equal
names stand against equal names (`Faithful`).
-/

namespace ScopeLint

open Syntax (Identifier)

/-- **Two identifiers have one name just when those that they stand against do.** -/
def Faithful (same : Identifier → Identifier → Prop) : Prop :=
  ∀ i i' j j', same i i' → same j j' → (i.name = j.name ↔ i'.name = j'.name)

section Relations

variable (same : Identifier → Identifier → Prop)

/-- Definitions that agree but for their identifiers. -/
structure Definition.Corresponds (d d' : Definition) : Prop where
  name : same d.name d'.name
  kind : d'.kind = d.kind

/-- References that agree but for their identifiers. -/
structure Reference.Corresponds (r r' : Reference) : Prop where
  identifier : same r.identifier r'.identifier
  access : r'.access = r.access
  init : r'.init = r.init
  origin : r'.origin = r.origin
  resolved : r'.resolved = r.resolved

/-- Bindings that agree but for the identifiers they hold and are named by. -/
structure Binding.Corresponds (b b' : Binding) : Prop where
  name : ∃ i i', same i i' ∧ b.name = i.name ∧ b'.name = i'.name
  definitions : List.Forall₂ (Definition.Corresponds same) b.definitions b'.definitions
  references : List.Forall₂ (Reference.Corresponds same) b.references b'.references

/-- Scopes that agree but for the identifiers in them. -/
structure Scope.Corresponds (s s' : Scope) : Prop where
  id : s'.id = s.id
  kind : s'.kind = s.kind
  parent : s'.parent = s.parent
  span : s'.span = s.span
  children : s'.children = s.children
  bindings : List.Forall₂ (Binding.Corresponds same) s.bindings s'.bindings
  through : List.Forall₂ (Reference.Corresponds same) s.through s'.through

/-- **Scope trees that agree but for the identifiers in them.** -/
structure ScopeTree.Corresponds (t t' : ScopeTree) : Prop where
  scopes : List.Forall₂ (Scope.Corresponds same) t.scopes t'.scopes

end Relations

variable {same : Identifier → Identifier → Prop}

/-- One more at the end of both lists. -/
theorem forall₂_concat {α β : Type} {R : α → β → Prop} {xs : List α} {ys : List β} {x : α} {y : β}
    (h : List.Forall₂ R xs ys) (hxy : R x y) : List.Forall₂ R (xs ++ [x]) (ys ++ [y]) :=
  List.rel_append h (.cons hxy .nil)

/-! ### Bindings -/

section Bindings

variable {d d' : Definition} {r r' : Reference} {b b' : Binding} {bs bs' : List Binding}

theorem Reference.Corresponds.resolvedAs (h : r.Corresponds same r') (id : Option ScopeId) :
    Reference.Corresponds same { r with resolved := id } { r' with resolved := id } :=
  { h with resolved := rfl }

/-- Corresponding bindings are those of corresponding identifiers. -/
theorem Binding.Corresponds.name_eq_iff (hsame : Faithful same) (h : b.Corresponds same b')
    {i i' : Identifier} (hi : same i i') : b.name = i.name ↔ b'.name = i'.name := by
  obtain ⟨j, j', hj, hname, hname'⟩ := h.name
  rw [hname, hname']
  exact hsame j j' i i' hj hi

theorem Definition.Corresponds.addDefinition (hsame : Faithful same) (hd : d.Corresponds same d')
    (h : List.Forall₂ (Binding.Corresponds same) bs bs') :
    List.Forall₂ (Binding.Corresponds same) (Scope.addDefinition d bs)
      (Scope.addDefinition d' bs') := by
  induction h with
  | nil =>
    exact .cons ⟨⟨d.name, d'.name, hd.name, rfl, rfl⟩, .cons hd .nil, .nil⟩ .nil
  | @cons b b' rest rest' hb hrest ih =>
    unfold Scope.addDefinition
    have hiff := hb.name_eq_iff hsame hd.name
    by_cases heq : b.name = d.name.name
    · rw [if_pos heq, if_pos (hiff.mp heq)]
      exact .cons { hb with definitions := forall₂_concat hb.definitions hd } hrest
    · rw [if_neg heq, if_neg fun he => heq (hiff.mpr he)]
      exact .cons hb ih

theorem Reference.Corresponds.addReference (hsame : Faithful same) (hr : r.Corresponds same r')
    (h : List.Forall₂ (Binding.Corresponds same) bs bs') :
    List.Forall₂ (Binding.Corresponds same) (Scope.addReference r bs)
      (Scope.addReference r' bs') := by
  induction h with
  | nil => exact .nil
  | @cons b b' rest rest' hb hrest ih =>
    unfold Scope.addReference
    have hiff : b.name = r.name ↔ b'.name = r'.name := hb.name_eq_iff hsame hr.identifier
    by_cases heq : b.name = r.name
    · rw [if_pos heq, if_pos (hiff.mp heq)]
      exact .cons { hb with references := forall₂_concat hb.references hr } hrest
    · rw [if_neg heq, if_neg fun he => heq (hiff.mpr he)]
      exact .cons hb ih

/-- Bindings of two names are found or missed together, if the names stand against each other. -/
theorem rel_find?_binding {name name' : String}
    (hname : ∀ b b' : Binding, b.Corresponds same b' → (b.name = name ↔ b'.name = name'))
    (h : List.Forall₂ (Binding.Corresponds same) bs bs') :
    Option.Rel (Binding.Corresponds same) (bs.find? (·.name == name))
      (bs'.find? (·.name == name')) := by
  induction h with
  | nil => exact .none
  | @cons b b' rest rest' hb hrest ih =>
    have hiff := hname b b' hb
    rw [List.find?_cons, List.find?_cons]
    by_cases heq : b.name = name
    · rw [beq_iff_eq.mpr heq, beq_iff_eq.mpr (hiff.mp heq)]
      exact .some hb
    · rw [beq_eq_false_iff_ne.mpr heq, beq_eq_false_iff_ne.mpr fun he => heq (hiff.mpr he)]
      exact ih

end Bindings

/-- Two options that stand in a relation are both empty, or both hold something. -/
theorem rel_cases {α β : Type} {R : α → β → Prop} {o : Option α} {o' : Option β}
    (h : Option.Rel R o o') :
    (o = none ∧ o' = none) ∨ ∃ a b, o = some a ∧ o' = some b ∧ R a b := by
  cases h with
  | none => exact .inl ⟨rfl, rfl⟩
  | some hab => exact .inr ⟨_, _, rfl, rfl, hab⟩

/-! ### Scopes -/

namespace Scope

variable {s s' : Scope} {d d' : Definition} {r r' : Reference}

theorem corresponds_empty (id : ScopeId) (kind : ScopeKind) (parent : Option ScopeId)
    (span : Span) : (empty id kind parent span).Corresponds same (empty id kind parent span) where
  id := rfl
  kind := rfl
  parent := rfl
  span := rfl
  children := rfl
  bindings := .nil
  through := .nil

namespace Corresponds

theorem rel_binding? (hsame : Faithful same) (h : s.Corresponds same s') {i i' : Identifier}
    (hi : same i i') :
    Option.Rel (Binding.Corresponds same) (s.binding? i.name) (s'.binding? i'.name) :=
  rel_find?_binding (fun _ _ hb => hb.name_eq_iff hsame hi) h.bindings

theorem define (hsame : Faithful same) (h : s.Corresponds same s') (hd : d.Corresponds same d') :
    (s.define d).Corresponds same (s'.define d') :=
  { h with bindings := hd.addDefinition hsame h.bindings }

theorem resolve (hsame : Faithful same) (h : s.Corresponds same s') (hr : r.Corresponds same r') :
    (s.resolve r).Corresponds same (s'.resolve r') := by
  have hresolved : Reference.Corresponds same { r with resolved := some s.id }
      { r' with resolved := some s'.id } := by
    rw [h.id]
    exact hr.resolvedAs (some s.id)
  exact { h with bindings := hresolved.addReference hsame h.bindings }

theorem pass (h : s.Corresponds same s') (hr : r.Corresponds same r') :
    (s.pass r).Corresponds same (s'.pass r') :=
  { h with through := forall₂_concat h.through hr }

theorem adopt (h : s.Corresponds same s') (child : ScopeId) :
    (s.adopt child).Corresponds same (s'.adopt child) :=
  { h with children := congrArg (· ++ [child]) h.children }

end Corresponds

end Scope

/-! ### Trees -/

theorem forall₂_modify {α β : Type} {R : α → β → Prop} {f : α → α} {g : β → β}
    (hfg : ∀ x y, R x y → R (f x) (g y)) {xs : List α} {ys : List β} (h : List.Forall₂ R xs ys) :
    ∀ i : Nat, List.Forall₂ R (xs.modify i f) (ys.modify i g) := by
  induction h with
  | nil => intro i; cases i <;> exact .nil
  | cons hxy hrest ih =>
    intro i
    cases i with
    | zero => exact .cons (hfg _ _ hxy) hrest
    | succ i => exact .cons hxy (ih i)

theorem rel_getElem? {α β : Type} {R : α → β → Prop} {xs : List α} {ys : List β}
    (h : List.Forall₂ R xs ys) : ∀ i : Nat, Option.Rel R xs[i]? ys[i]? := by
  induction h with
  | nil => intro i; exact .none
  | cons hxy hrest ih =>
    intro i
    cases i with
    | zero => exact .some hxy
    | succ i => exact ih i

namespace ScopeTree

theorem corresponds_ofSpan (span : Span) : (ofSpan span).Corresponds same (ofSpan span) :=
  ⟨.cons (Scope.corresponds_empty ..) .nil⟩

variable {t t' : ScopeTree}

namespace Corresponds

theorem size (h : t.Corresponds same t') : t'.size = t.size := h.scopes.length_eq.symm

theorem rel_scope? (h : t.Corresponds same t') (id : ScopeId) :
    Option.Rel (Scope.Corresponds same) (t.scope? id) (t'.scope? id) :=
  rel_getElem? h.scopes id

theorem update (h : t.Corresponds same t') (id : ScopeId) {f g : Scope → Scope}
    (hfg : ∀ s s' : Scope, s.Corresponds same s' → (f s).Corresponds same (g s')) :
    (t.update id f).Corresponds same (t'.update id g) :=
  ⟨forall₂_modify hfg h.scopes id⟩

theorem add (h : t.Corresponds same t') (parent : ScopeId) (kind : ScopeKind) (span : Span) :
    (t.add parent kind span).Corresponds same (t'.add parent kind span) := by
  have hnew : ScopeTree.Corresponds same
      ⟨t.scopes ++ [Scope.empty t.size kind (some parent) span]⟩
      ⟨t'.scopes ++ [Scope.empty t.size kind (some parent) span]⟩ :=
    ⟨forall₂_concat h.scopes (Scope.corresponds_empty ..)⟩
  unfold ScopeTree.add
  rw [h.size]
  exact hnew.update parent fun _ _ hs => hs.adopt t.size

theorem define (hsame : Faithful same) (h : t.Corresponds same t') (id : ScopeId)
    {d d' : Definition} (hd : d.Corresponds same d') :
    (t.define id d).Corresponds same (t'.define id d') :=
  h.update id fun _ _ hs => hs.define hsame hd

theorem pass (h : t.Corresponds same t') (id : ScopeId) {r r' : Reference}
    (hr : r.Corresponds same r') : (t.pass id r).Corresponds same (t'.pass id r') :=
  h.update id fun _ _ hs => hs.pass hr

theorem rel_binding? (hsame : Faithful same) (h : t.Corresponds same t') (id : ScopeId)
    {i i' : Identifier} (hi : same i i') :
    Option.Rel (Binding.Corresponds same) (t.binding? id i.name) (t'.binding? id i'.name) := by
  unfold ScopeTree.binding?
  rcases rel_cases (h.rel_scope? id) with ⟨hnone, hnone'⟩ | ⟨s, s', hs, hs', hss⟩
  · rw [hnone, hnone']
    exact .none
  · rw [hs, hs']
    exact hss.rel_binding? hsame hi

theorem rel_resolve? (hsame : Faithful same) (h : t.Corresponds same t') (id : ScopeId)
    {r r' : Reference} (hr : r.Corresponds same r') :
    Option.Rel (ScopeTree.Corresponds same) (t.resolve? id r) (t'.resolve? id r') := by
  have hbinding : Option.Rel (Binding.Corresponds same) (t.binding? id r.name)
      (t'.binding? id r'.name) := h.rel_binding? hsame id hr.identifier
  unfold ScopeTree.resolve?
  rcases rel_cases hbinding with ⟨hnone, hnone'⟩ | ⟨b, b', hb, hb', _⟩
  · rw [hnone, hnone']
    exact .none
  · rw [hb, hb']
    exact .some (h.update id fun _ _ hs => hs.resolve hsame hr)

/-- The way up is the same in both. -/
theorem variableScopeWithin? (h : t.Corresponds same t') : ∀ (fuel : Nat) (id : ScopeId),
    t'.variableScopeWithin? fuel id = t.variableScopeWithin? fuel id
  | 0, _ => rfl
  | fuel + 1, id => by
      unfold ScopeTree.variableScopeWithin?
      rcases rel_cases (h.rel_scope? id) with ⟨hnone, hnone'⟩ | ⟨s, s', hs, hs', hss⟩
      · rw [hnone, hnone']
        rfl
      · rw [hs, hs']
        show (if s'.kind.isVariableScope then _ else _) = if s.kind.isVariableScope then _ else _
        rw [hss.kind, hss.parent]
        split
        · rfl
        · cases s.parent with
          | none => rfl
          | some parent => exact h.variableScopeWithin? fuel parent

theorem variableScope? (h : t.Corresponds same t') (id : ScopeId) :
    t'.variableScope? id = t.variableScope? id := by
  unfold ScopeTree.variableScope?
  rw [h.size, h.variableScopeWithin?]

theorem unresolved (h : t.Corresponds same t') :
    List.Forall₂ (Reference.Corresponds same) t.unresolved t'.unresolved := by
  unfold ScopeTree.unresolved
  rcases rel_cases (h.rel_scope? rootId) with ⟨hnone, hnone'⟩ | ⟨s, s', hs, hs', hss⟩
  · rw [hnone, hnone']
    exact .nil
  · rw [hs, hs']
    exact hss.through

/-! ### Inspection -/

theorem inspectFrom (h : t.Corresponds same t') : ∀ (fuel : Nat) (stack : List ScopeId),
    t'.inspectFrom fuel stack = t.inspectFrom fuel stack
  | 0, [] => rfl
  | _ + 1, [] => rfl
  | 0, _ :: _ => rfl
  | fuel + 1, id :: stack => by
      unfold ScopeTree.inspectFrom
      rcases rel_cases (h.rel_scope? id) with ⟨hnone, hnone'⟩ | ⟨s, s', hs, hs', hss⟩
      · simp only [hnone, hnone', h.size]
      · simp only [hs, hs', hss.children, h.inspectFrom fuel]

theorem extent (h : t.Corresponds same t') : ∀ (depth : Nat) (id : ScopeId),
    t'.extent depth id = t.extent depth id
  | 0, _ => rfl
  | depth + 1, id => by
      have hbelow : t'.extent depth = t.extent depth := funext fun child => h.extent depth child
      unfold ScopeTree.extent
      rcases rel_cases (h.rel_scope? id) with ⟨hnone, hnone'⟩ | ⟨s, s', hs, hs', hss⟩
      · rw [hnone, hnone']
      · simp only [hs, hs', hss.children, hbelow]

/-- Both are inspected in one order. -/
theorem inspectionOrder (h : t.Corresponds same t') : t'.inspectionOrder = t.inspectionOrder := by
  unfold ScopeTree.inspectionOrder
  rw [h.size, h.extent, h.inspectFrom]

end Corresponds

end ScopeTree

end ScopeLint
