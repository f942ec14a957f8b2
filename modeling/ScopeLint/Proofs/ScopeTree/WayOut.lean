import Mathlib.Data.List.Nodup
import ScopeLint.Proofs.ScopeTree.Chain

/-! # Ways out of a scope

A way out (`ScopeTree.LeadsOut`) goes from a scope to the scope around it, again and again, and
ends at the global scope.  It says nothing of the other scopes of the tree, nor of what the
scopes on it hold.  Still it meets no scope twice (`LeadsOut.nodup`), and declarations by `var`
in its first scope belong to a scope on it (`LeadsOut.variableScopeWithin?_mem`).

In a formed tree the way out of a scope is its chain (`Formed.leadsOut_chain`).
-/

namespace ScopeLint

namespace ScopeTree

/-- **A way out**: each scope stands in the next one, and the last one is the global scope. -/
inductive LeadsOut (t : ScopeTree) : List ScopeId → Prop
  | global {s : Scope} : t.scope? rootId = some s → s.parent = none → LeadsOut t [rootId]
  | inner {id parent : Nat} {outer : List ScopeId} : t.parent? id = some parent →
      LeadsOut t (parent :: outer) → LeadsOut t (id :: parent :: outer)

namespace LeadsOut

variable {t t' : ScopeTree} {ids outer outer' : List ScopeId} {id : Nat}

theorem ne_nil (h : t.LeadsOut ids) : ids ≠ [] := by
  cases h <;> exact List.cons_ne_nil _ _

theorem lt_size (h : t.LeadsOut ids) (hid : id ∈ ids) : id < t.size := by
  induction h with
  | global hs _ =>
    rw [List.mem_singleton.mp hid]
    exact ScopeTree.lt_size hs
  | inner hp _ ih =>
    rcases List.mem_cons.mp hid with rfl | hid
    · obtain ⟨s, hs, _⟩ := Option.bind_eq_some_iff.mp hp
      exact ScopeTree.lt_size hs
    · exact ih hid

theorem of_append (inside : List ScopeId) (h : t.LeadsOut (inside ++ id :: outer)) :
    t.LeadsOut (id :: outer) := by
  induction inside with
  | nil => exact h
  | cons i inside ih =>
    -- Something is behind the first scope, so it is not the global one.
    cases hrest : inside ++ id :: outer with
    | nil => exact absurd hrest (List.append_ne_nil_of_right_ne_nil _ (List.cons_ne_nil _ _))
    | cons parent rest =>
      rw [List.cons_append, hrest] at h
      cases h with
      | inner _ hrest' => exact ih (hrest ▸ hrest')

theorem unique (h : t.LeadsOut (id :: outer)) (h' : t.LeadsOut (id :: outer')) :
    outer = outer' := by
  induction outer generalizing id outer' with
  | nil =>
    cases h with
    | global hs hnone =>
      cases h' with
      | global => rfl
      | inner hp _ =>
        rw [parent?_of_scope hs, hnone] at hp
        cases hp
  | cons parent outer ih =>
    cases h with
    | inner hp hrest =>
      cases h' with
      | global hs hnone =>
        rw [parent?_of_scope hs, hnone] at hp
        cases hp
      | inner hp' hrest' =>
        obtain rfl := Option.some.inj (hp.symm.trans hp')
        rw [ih hrest hrest']

/-- A way out meets no scope twice: it would go on from there as before, and never end. -/
theorem nodup (h : t.LeadsOut ids) : ids.Nodup := by
  induction h with
  | global => exact List.nodup_singleton _
  | @inner id parent outer hp hrest ih =>
    refine List.nodup_cons.mpr ⟨fun hmem => ?_, ih⟩
    obtain ⟨inside, rest, hsplit⟩ := List.append_of_mem hmem
    have hagain : t.LeadsOut (id :: rest) := of_append inside (hsplit ▸ hrest)
    have hsame := (LeadsOut.inner hp hrest).unique hagain
    have hlength := congrArg List.length hsplit
    rw [hsame, List.length_append, List.length_cons] at hlength
    omega

/-- A way out stays one while its scopes keep their parents. -/
theorem congr (h : t.LeadsOut ids)
    (hkeeps : ∀ i ∈ ids, (t'.scope? i).map (·.parent) = (t.scope? i).map (·.parent)) :
    t'.LeadsOut ids := by
  have hjoin : ∀ (t : ScopeTree) (i : Nat), t.parent? i = ((t.scope? i).map (·.parent)).join :=
    fun t i => by cases h : t.scope? i <;> simp [parent?, h]
  induction h with
  | global hs hnone =>
    have hroot := hkeeps rootId (List.mem_singleton_self _)
    rw [hs, Option.map_some, hnone] at hroot
    obtain ⟨s', hs', hnone'⟩ := Option.map_eq_some_iff.mp hroot
    exact .global hs' hnone'
  | inner hp _ ih =>
    refine .inner ?_ (ih (List.forall_mem_of_forall_mem_cons hkeeps))
    rw [hjoin, hkeeps _ List.mem_cons_self, ← hjoin, hp]

/-- **A declaration by `var` goes to a scope on the way out**, if it finds one. -/
theorem variableScopeWithin?_mem (h : t.LeadsOut ids) {fuel v : Nat} (hid : ids.head? = some id)
    (hv : t.variableScopeWithin? fuel id = some v) : v ∈ ids := by
  induction fuel generalizing ids id with
  | zero => cases hv
  | succ fuel ih =>
    obtain ⟨rest, rfl⟩ := List.head?_eq_some_iff.mp hid
    obtain ⟨s, hs, hv⟩ := Option.bind_eq_some_iff.mp hv
    split at hv
    · rw [← Option.some.inj hv]
      exact List.mem_cons_self
    · cases h with
      | global hs' hnone =>
        rw [Option.some.inj (hs.symm.trans hs'), hnone] at hv
        rw [← Option.some.inj hv]
        exact List.mem_cons_self
      | inner hp hrest =>
        rw [parent?_of_scope hs] at hp
        rw [hp] at hv
        exact List.mem_cons_of_mem _ (ih hrest rfl hv)

end LeadsOut

/-- In a formed tree every chain is a way out. -/
theorem Formed.leadsOut_chain {t : ScopeTree} (h : t.Formed) {id : Nat} (hid : id < t.size) :
    t.LeadsOut (t.chain id) := by
  induction id using Nat.strongRecOn with
  | ind id ih =>
    rcases Nat.eq_zero_or_pos id with rfl | hpos
    · obtain ⟨s, hs⟩ := scope?_isSome hid
      rw [show t.chain 0 = [rootId] from h.chain_root]
      exact .global hs ((parent?_of_scope hs).symm.trans h.parent?_root)
    · obtain ⟨parent, hp⟩ := h.inner id hpos hid
      have hlt := h.parent_lt id parent hp
      have hparent : parent < t.size := Nat.lt_trans hlt hid
      have houter := ih parent hlt hparent
      rw [h.chain_eq hparent] at houter
      rw [h.chain_some hid hp, h.chain_eq hparent]
      exact .inner hp houter

end ScopeTree

end ScopeLint
