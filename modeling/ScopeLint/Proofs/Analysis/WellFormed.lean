import Mathlib.Data.List.Nodup
import ScopeLint.Proofs.Walk.Bindings
import ScopeLint.Proofs.Walk.Openings

/-! # The scope tree of a program is well formed

What the modules on walks prove of scopes one by one is put together here: ids,
parents and children fit, scopes are numbered in preorder, and bindings hold what
belongs to them (`ScopeTree.WellFormed`).  Validation checks a part of this, so it
accepts the scope tree of every program (`analyze_validate`).
-/

namespace ScopeLint

open Syntax (Program)

namespace ScopeTree

/-- **A well-formed scope tree.** -/
structure WellFormed (t : ScopeTree) : Prop where
  nonempty : 0 < t.size
  /-- The id of a scope is its place. -/
  id_eq : ∀ (i : Nat) s, t.scope? i = some s → s.id = i
  /-- The first scope is the global one, and no other is. -/
  kind_global : ∀ (i : Nat) s, t.scope? i = some s → (s.kind = .global ↔ i = 0)
  /-- The first scope has no parent, and every other has one. -/
  parent_none : ∀ (i : Nat) s, t.scope? i = some s → (s.parent = none ↔ i = 0)
  parent_lt : ∀ (i p : Nat) s, t.scope? i = some s → s.parent = some p → p < i
  /-- The children of a scope are the scopes that name it as their parent. -/
  mem_children : ∀ (i : Nat) s, t.scope? i = some s →
    ∀ j : Nat, j ∈ s.children ↔ t.parent? j = some i
  /-- Every scope but the first is a child once. -/
  child_once : ∀ j : Nat, 0 < j → j < t.size → (t.scopes.flatMap (·.children)).count j = 1
  children_increasing : ∀ (i : Nat) s, t.scope? i = some s →
    s.children.Pairwise (fun a b : Nat => a < b)
  /-- Ids are in preorder. -/
  preorder_eq : t.preorder rootId = List.range t.size
  /-- The scopes inside a scope, with the scope, have consecutive ids. -/
  interval : ∀ i : Nat, i < t.size → ∃ stop : Nat, ∀ j : Nat,
    j < t.size ∧ i ∈ t.chain j ↔ i ≤ j ∧ j < stop
  /-- A binding is the one of its name. -/
  binding?_iff : ∀ (i : Nat) s, t.scope? i = some s → ∀ name b,
    s.binding? name = some b ↔ b ∈ s.bindings ∧ b.name = name
  /-- A binding holds what belongs to it. -/
  sound : ∀ (i : Nat) s, t.scope? i = some s → ∀ b ∈ s.bindings, b.Sound i

/-! ### Children and names -/

theorem Formed.mem_children {t : ScopeTree} (h : t.Formed) {i : Nat} {s : Scope}
    (hs : t.scope? i = some s) {j : Nat} : j ∈ s.children ↔ t.parent? j = some i := by
  rw [← h.mem_childrenOf, childrenOf_of_scope hs]

theorem Formed.children_increasing {t : ScopeTree} (h : t.Formed) {i : Nat} {s : Scope}
    (hs : t.scope? i = some s) : s.children.Pairwise (fun a b : Nat => a < b) := by
  rw [← childrenOf_of_scope hs]
  exact h.childrenOf_increasing i

/-- No scope is a child twice, for it names one parent. -/
theorem Formed.nodup_children {t : ScopeTree} (h : t.Formed) :
    (t.scopes.flatMap (·.children)).Nodup := by
  refine List.nodup_flatMap.mpr ⟨fun s hs => ?_, ?_⟩
  · exact (h.children_increasing (h.scope?_of_mem hs)).imp fun hlt => Nat.ne_of_lt hlt
  · have hids : t.scopes.Pairwise fun s s' => s.id ≠ s'.id := by
      refine List.pairwise_map.mp ?_
      rw [h.ids]
      exact List.nodup_range
    -- A child of two scopes would have both as its parent.
    refine hids.imp_of_mem fun {s s'} hs hs' hne j hj hj' => hne ?_
    have hparent := (h.mem_children (h.scope?_of_mem hs)).mp hj
    rw [(h.mem_children (h.scope?_of_mem hs')).mp hj'] at hparent
    exact (Option.some.inj hparent).symm

theorem Formed.child_once {t : ScopeTree} (h : t.Formed) {j : Nat} (hpos : 0 < j)
    (hj : j < t.size) : (t.scopes.flatMap (·.children)).count j = 1 := by
  obtain ⟨p, hp⟩ := h.inner j hpos hj
  obtain ⟨s, hs⟩ := scope?_isSome (Nat.lt_trans (h.parent_lt j p hp) hj)
  refine List.count_eq_one_of_mem h.nodup_children ?_
  exact List.mem_flatMap.mpr ⟨s, List.mem_of_getElem? hs, (h.mem_children hs).mpr hp⟩

theorem Formed.parent_none {t : ScopeTree} (h : t.Formed) {i : Nat} {s : Scope}
    (hs : t.scope? i = some s) : s.parent = none ↔ i = 0 := by
  rw [← parent?_of_scope hs]
  constructor
  · intro hnone
    by_contra hne
    obtain ⟨p, hp⟩ := h.inner i (Nat.pos_of_ne_zero hne) (lt_size hs)
    rw [hnone] at hp
    cases hp
  · rintro rfl
    exact h.parent?_root

theorem Formed.binding?_iff {t : ScopeTree} (h : t.Formed) {i : Nat} {s : Scope}
    (hs : t.scope? i = some s) (name : String) (b : Binding) :
    s.binding? name = some b ↔ b ∈ s.bindings ∧ b.name = name := by
  constructor
  · intro hb
    exact ⟨List.mem_of_find?_eq_some hb, Scope.binding?_name hb⟩
  · rintro ⟨hb, rfl⟩
    exact Scope.binding?_of_mem (h.names_nodup i s hs) hb

/-- The scopes inside a scope have consecutive ids. -/
theorem Formed.interval {t : ScopeTree} (h : t.Formed) (hnumbered : t.Numbered) {i : Nat}
    (hi : i < t.size) :
    ∃ stop : Nat, ∀ j : Nat, j < t.size ∧ i ∈ t.chain j ↔ i ≤ j ∧ j < stop := by
  refine ⟨i + (t.preorder i).length, fun j => ?_⟩
  rw [← h.mem_preorder hi]
  have hrange := h.preorder_eq_range' hnumbered hi
  generalize (t.preorder i).length = n at hrange
  rw [hrange, List.mem_range'_1]

end ScopeTree

/-- **Validation accepts the scope tree of every program.** -/
theorem analyze_validate (program : Program) : (analyze program).validate = .ok () :=
  (analyze_formed program).linked.validate_eq (analyze_sound program)

/-- **The scope tree of every program is well formed.** -/
theorem analyze_wellFormed (program : Program) : (analyze program).WellFormed := by
  have hformed := analyze_formed program
  have hnumbered := analyze_numbered program
  have hsound := analyze_sound program
  constructor
  case nonempty => exact hformed.pos
  case id_eq => exact hformed.id_eq
  case kind_global => exact fun i s hs => analyze_kind_eq_global program hs
  case parent_none => exact fun i s hs => hformed.parent_none hs
  case parent_lt =>
    intro i p s hs hp
    exact hformed.parent_lt i p ((ScopeTree.parent?_of_scope hs).trans hp)
  case mem_children => exact fun i s hs j => hformed.mem_children hs
  case child_once => exact fun j hpos hj => hformed.child_once hpos hj
  case children_increasing => exact fun i s hs => hformed.children_increasing hs
  case preorder_eq => exact hformed.preorder_root hnumbered
  case interval => exact fun i hi => hformed.interval hnumbered hi
  case binding?_iff => exact fun i s hs => hformed.binding?_iff hs
  case sound =>
    intro i s hs b hb
    rw [← hformed.id_eq i s hs]
    exact hsound i s hs b hb

end ScopeLint
