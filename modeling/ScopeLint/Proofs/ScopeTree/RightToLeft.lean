import ScopeLint.Scope.Inspection
import ScopeLint.Proofs.ScopeTree.Lookup

/-! # The right-to-left preorder

An inspection keeps a stack of scopes to come.  What it meets is the **right-to-left
preorder** of the scopes on the stack (`ScopeTree.RightToLeft`): a scope comes before
the scopes inside it, and of its children the last comes first, with all that is inside
it.  This holds of any list of scopes, be it a tree or not: an inspection succeeds just
when there is such an order, and takes one step for each scope that it meets
(`inspectFrom_eq_ok_iff`).
-/

namespace ScopeLint

namespace ScopeTree

/-- **The right-to-left preorder of some scopes**: `t.RightToLeft ids met` says that `met`
are the scopes `ids` and those inside them, in order, a scope before its children and
these from the last to the first. -/
inductive RightToLeft (t : ScopeTree) : List ScopeId → List ScopeId → Prop
  | nil : RightToLeft t [] []
  | cons {id : ScopeId} {s : Scope} {rest inner after : List ScopeId}
      (hs : t.scope? id = some s) (hinner : RightToLeft t s.children.reverse inner)
      (hafter : RightToLeft t rest after) : RightToLeft t (id :: rest) (id :: (inner ++ after))

variable {t : ScopeTree}

namespace RightToLeft

theorem append {ids ids' met met' : List ScopeId} (h : t.RightToLeft ids met)
    (h' : t.RightToLeft ids' met') : t.RightToLeft (ids ++ ids') (met ++ met') := by
  induction h with
  | nil => exact h'
  | cons hs hinner _ _ ih =>
    rw [List.cons_append, List.cons_append, List.append_assoc]
    exact .cons hs hinner ih

theorem flatMap {ids : List ScopeId} {f : ScopeId → List ScopeId}
    (h : ∀ id ∈ ids, t.RightToLeft [id] (f id)) : t.RightToLeft ids (ids.flatMap f) := by
  induction ids with
  | nil => exact .nil
  | cons id ids ih =>
    rw [List.flatMap_cons]
    exact (h id (List.mem_cons_self ..)).append
      (ih fun id hid => h id (List.mem_cons_of_mem _ hid))

/-- The order of some scopes and then others is that of the first and then that of the
others. -/
theorem exists_append {ids ids' met : List ScopeId} (h : t.RightToLeft (ids ++ ids') met) :
    ∃ first after, met = first ++ after ∧ t.RightToLeft ids first ∧ t.RightToLeft ids' after := by
  induction ids generalizing met with
  | nil => exact ⟨[], met, rfl, .nil, h⟩
  | cons id ids ih =>
    cases h with
    | @cons _ s _ inner _ hs hinner hrest =>
      obtain ⟨first, after, rfl, hfirst, hafter⟩ := ih hrest
      exact ⟨id :: (inner ++ first), after, by simp, .cons hs hinner hfirst, hafter⟩

/-- Some scopes have one order. -/
theorem unique {ids met met' : List ScopeId} (h : t.RightToLeft ids met)
    (h' : t.RightToLeft ids met') : met = met' := by
  induction h generalizing met' with
  | nil =>
    cases h'
    rfl
  | cons hs _ _ ihinner ihafter =>
    cases h' with
    | cons hs' hinner' hafter' =>
      cases hs.symm.trans hs'
      rw [ihinner hinner', ihafter hafter']

/-- All scopes met are there. -/
theorem lt_size {ids met : List ScopeId} (h : t.RightToLeft ids met) :
    ∀ id ∈ met, id < t.size := by
  induction h with
  | nil => exact fun _ hid => absurd hid List.not_mem_nil
  | cons hs _ _ ihinner ihafter =>
    intro id hid
    rcases List.mem_cons.mp hid with rfl | hid
    · exact ScopeTree.lt_size hs
    · exact (List.mem_append.mp hid).elim (ihinner id) (ihafter id)

/-- The scopes themselves are met in order. -/
theorem sublist {ids met : List ScopeId} (h : t.RightToLeft ids met) : ids.Sublist met := by
  induction h with
  | nil => exact .slnil
  | cons _ _ _ _ ih => exact (ih.trans (List.sublist_append_right ..)).cons_cons _

/-- What is inside a scope that is met is met. -/
theorem exists_inner {ids met : List ScopeId} (h : t.RightToLeft ids met) {id : ScopeId}
    (hid : id ∈ met) : ∃ s inner, t.scope? id = some s ∧
      t.RightToLeft s.children.reverse inner ∧ inner.Sublist met := by
  induction h with
  | nil => exact absurd hid List.not_mem_nil
  | @cons _ s _ inner after hs hinner _ ihinner ihafter =>
    have hfirst : inner.Sublist (inner ++ after) := List.sublist_append_left ..
    rcases List.mem_cons.mp hid with rfl | hid
    · exact ⟨s, inner, hs, hinner, hfirst.cons _⟩
    · rcases List.mem_append.mp hid with hid | hid
      · obtain ⟨s', inner', hs', hinner', hsub⟩ := ihinner hid
        exact ⟨s', inner', hs', hinner', (hsub.trans hfirst).cons _⟩
      · obtain ⟨s', inner', hs', hinner', hsub⟩ := ihafter hid
        exact ⟨s', inner', hs', hinner', (hsub.trans (List.sublist_append_right ..)).cons _⟩

end RightToLeft

/-! ### The inspection -/

/-- An inspection of an order takes a step for each of its scopes, and breaks off only
where there are more of them than steps. -/
theorem RightToLeft.inspectFrom_eq : ∀ (fuel : Nat) {stack met : List ScopeId},
    t.RightToLeft stack met →
      t.inspectFrom fuel stack = if met.length ≤ fuel then .ok met else .error .unfinished
  | fuel, [], _, .nil => by
      rw [inspectFrom, List.length_nil, if_pos (Nat.zero_le fuel)]
  | 0, id :: _, _, .cons .. => by
      rw [inspectFrom, List.length_cons, if_neg (Nat.not_succ_le_zero _)]
  | fuel + 1, id :: _, _, .cons hs hinner hafter => by
      -- The children are put on the stack, so the next stack has the rest of the order.
      have hnext := RightToLeft.inspectFrom_eq fuel (hinner.append hafter)
      rw [inspectFrom, hs]
      show (t.inspectFrom fuel _).map (id :: ·) = _
      rw [hnext, List.length_cons]
      simp only [Nat.succ_le_succ_iff]
      split <;> rfl

theorem rightToLeft_of_inspectFrom : ∀ (fuel : Nat) {stack met : List ScopeId},
    t.inspectFrom fuel stack = .ok met → t.RightToLeft stack met ∧ met.length ≤ fuel
  | _, [], met, h => by
      rw [inspectFrom] at h
      cases h
      exact ⟨.nil, Nat.zero_le _⟩
  | 0, _ :: _, _, h => by
      rw [inspectFrom] at h
      cases h
  | fuel + 1, id :: stack, met, h => by
      rw [inspectFrom] at h
      cases hs : t.scope? id with
      | none =>
        rw [hs] at h
        cases h
      | some s =>
        rw [hs] at h
        cases hrest : t.inspectFrom fuel (s.children.reverse ++ stack) with
        | error fault =>
          simp only [hrest] at h
          cases h
        | ok rest =>
          simp only [hrest] at h
          cases h
          obtain ⟨hmet, hlength⟩ := rightToLeft_of_inspectFrom fuel hrest
          obtain ⟨inner, after, rfl, hinner, hafter⟩ := hmet.exists_append
          exact ⟨.cons hs hinner hafter, Nat.succ_le_succ hlength⟩

/-- **An inspection meets the right-to-left preorder of its stack**, and takes a step for
each scope. -/
theorem inspectFrom_eq_ok_iff {fuel : Nat} {stack met : List ScopeId} :
    t.inspectFrom fuel stack = .ok met ↔ t.RightToLeft stack met ∧ met.length ≤ fuel :=
  ⟨rightToLeft_of_inspectFrom fuel, fun h => (h.1.inspectFrom_eq fuel).trans (if_pos h.2)⟩

end ScopeTree

end ScopeLint
