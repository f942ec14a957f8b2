import Mathlib.Data.List.Perm.Basic
import ScopeLint.Proofs.Walk.Leaving

/-! # References belong to the nearest scope that declares them

The walk resolves references while it still meets declarations.  In the end the
outcome is as if all declarations had been collected first (`TwoPass`): a
reference belongs to its home, the nearest scope around it that declares its
name in the finished tree, and has passed through the scopes before that.
-/

namespace ScopeLint

open Syntax (Program)

/-- The reference as it is made, before its scope is known. -/
def Reference.unresolved (r : Reference) : Reference := { r with resolved := none }

/-- **A tree resolves references as if all names had been declared before.** -/
structure TwoPass (t : ScopeTree) (uses : List Reference) : Prop where
  /-- Every reference is made unresolved, in a scope of the tree. -/
  made : ∀ r ∈ uses, r.origin < t.size ∧ r.resolved = none
  /-- A binding has the references of its name whose home is its scope. -/
  bound : ∀ (i : Nat) s, t.scope? i = some s → ∀ b ∈ s.bindings,
    b.references =
      (uses.filter fun r => t.home? r = some i ∧ r.name = b.name).map (·.resolvedIn i)
  /-- Through a scope pass the references from inside it whose home, if they have
  one, lies properly around it. -/
  through : ∀ (i : Nat) s, t.scope? i = some s →
    s.through = uses.filter fun r =>
      i ∈ t.chain r.origin ∧ ∀ home ∈ t.home? r, home ≠ i ∧ home ∈ t.chain i
  /-- Every reference is in one place: passed through the global scope, or in one
  binding. -/
  once : uses.Perm
    (t.unresolved ++
      t.scopes.flatMap fun s => s.bindings.flatMap fun b => b.references.map (·.unresolved))

/-! ### Grouping -/

/-- A list is, up to order, the concatenation of its groups by distinct keys. -/
theorem perm_groups {α β κ : Type} [DecidableEq β] (f : α → β) (g : κ → β) :
    ∀ {keys : List κ} {l : List α}, (keys.map g).Nodup → (∀ x ∈ l, f x ∈ keys.map g) →
      l.Perm (keys.flatMap fun k => l.filter (f · = g k))
  | [], l, _, hmem => by
      have hnil : l = [] := List.eq_nil_iff_forall_not_mem.mpr fun x hx =>
        List.not_mem_nil (hmem x hx)
      rw [hnil]
      exact .nil
  | k :: keys, l, hnodup, hmem => by
      obtain ⟨hnot, hrest⟩ := List.nodup_cons.mp hnodup
      -- The group of the first key is split off, and no other key has a part of it.
      have hothers := perm_groups f g (l := l.filter fun x => !decide (f x = g k)) hrest
        fun x hx => by
          obtain ⟨hx, hne⟩ := List.mem_filter.mp hx
          exact (List.mem_cons.mp (hmem x hx)).resolve_left (by simpa using hne)
      have hsame : (keys.flatMap fun k' =>
          (l.filter fun x => !decide (f x = g k)).filter (f · = g k')) =
          keys.flatMap fun k' => l.filter (f · = g k') := by
        refine List.flatMap_congr fun k' hk' => ?_
        have hne : g k' ≠ g k := fun he => hnot (he ▸ List.mem_map_of_mem hk')
        rw [List.filter_filter]
        refine List.filter_congr fun x _ => ?_
        by_cases hx : f x = g k' <;> simp [hx, hne]
      rw [hsame] at hothers
      exact (List.filter_append_perm (fun x => decide (f x = g k)) l).symm.trans
        (hothers.append_left _)

/-! ### Finished walks -/

namespace Walk

theorem opened_of_closed {w : Walk} (h : w.stack = []) : w.opened = [] := by
  rw [opened, h]
  rfl

theorem holds_of_closed {w : Walk} (h : w.stack = []) (name : String) (i : Nat) :
    w.holds name i = w.tree.declares i name :=
  holds_of_not_opened (by rw [opened_of_closed h]; exact List.not_mem_nil) name

/-- When no scope is open any more, a reference has come home. -/
theorem place?_of_closed {w : Walk} (h : w.stack = []) (r : Reference) :
    w.place? r = w.tree.home? r :=
  List.find?_congr fun i _ => holds_of_closed h r.name i

theorem settledIn_of_closed {w : Walk} (h : w.stack = []) (i : Nat) (r : Reference) :
    w.settledIn i r = decide (w.tree.home? r = some i) := by
  rw [settledIn, place?_of_closed h, opened_of_closed h]
  by_cases he : w.tree.home? r = some i <;> simp [he]

/-- When no scope is open any more, a reference has passed through the scopes
before its home. -/
theorem passed_of_closed {w : Walk} (hw : w.tree.Formed) (h : w.stack = []) {r : Reference}
    (hr : r.origin < w.tree.size) (i : Nat) :
    w.passed i r = true ↔
      i ∈ w.tree.chain r.origin ∧ ∀ home ∈ w.tree.home? r, home ≠ i ∧ home ∈ w.tree.chain i := by
  simp only [passed, holds_of_closed h, Bool.and_eq_true, List.contains_iff_mem, List.all_eq_true,
    Bool.or_eq_true, decide_eq_true_eq, Bool.not_eq_true']
  refine and_congr_right fun hi => ⟨fun hall home hhome => ?_, fun hhome j hj => ?_⟩
  · obtain ⟨hmem, hdeclares, _⟩ := (hw.find?_chain_iff hr _).mp hhome
    rcases hall home hmem with hlt | hnot
    · exact ⟨Nat.ne_of_lt hlt, hw.mem_chain_of_le hr hmem hi (Nat.le_of_lt hlt)⟩
    · rw [hdeclares] at hnot
      exact absurd hnot Bool.noConfusion
  · cases hd : w.tree.declares j r.name with
    | false => exact Or.inr rfl
    | true =>
      -- The home is at `j` or nearer, and properly around `i`.
      have hsome : ((w.tree.chain r.origin).find? (w.tree.declares · r.name)).isSome :=
        List.find?_isSome.mpr ⟨j, hj, hd⟩
      obtain ⟨home, hfind⟩ := Option.isSome_iff_exists.mp hsome
      obtain ⟨_, _, hnearest⟩ := (hw.find?_chain_iff hr _).mp hfind
      obtain ⟨hne, haround⟩ := hhome home hfind
      have hilt : i < w.tree.size := Nat.lt_of_le_of_lt (hw.le_of_mem_chain hr hi) hr
      have hlt : home < i := Nat.lt_of_le_of_ne (hw.le_of_mem_chain hilt haround) hne
      rcases Nat.lt_or_ge home j with hbefore | hafter
      · rw [hnearest j hj hbefore] at hd
        exact absurd hd Bool.noConfusion
      · exact Or.inl (Nat.lt_of_le_of_lt hafter hlt)

end Walk

/-! ### References by their homes -/

/-- References are, up to order, those without a home and those at home in each
scope. -/
theorem ScopeTree.Formed.perm_homes {t : ScopeTree} (h : t.Formed) {uses : List Reference}
    (hmade : ∀ r ∈ uses, r.origin < t.size) :
    uses.Perm
      ((uses.filter fun r => t.home? r = none) ++
        t.scopes.flatMap fun s => uses.filter fun r => t.home? r = some s.id) := by
  have hids : (t.scopes.map fun s => some s.id) = (List.range t.size).map some := by
    rw [← h.ids, List.map_map]
    rfl
  have hnodup : (t.scopes.map fun s => some s.id).Nodup := by
    rw [hids]
    exact List.Pairwise.map some (fun _ _ hne he => hne (Option.some.inj he)) List.nodup_range
  have hhomes : ∀ r ∈ uses.filter (fun r => !decide (t.home? r = none)),
      t.home? r ∈ t.scopes.map fun s => some s.id := by
    intro r hr
    obtain ⟨hr, hhome⟩ := List.mem_filter.mp hr
    cases hfind : t.home? r with
    | none => simp [hfind] at hhome
    | some i =>
      have hmem := List.mem_of_find?_eq_some hfind
      have hle := h.le_of_mem_chain (hmade r hr) hmem
      rw [hids]
      exact List.mem_map_of_mem (List.mem_range.mpr (Nat.lt_of_le_of_lt hle (hmade r hr)))
  have hgroups := perm_groups t.home? (fun s : Scope => some s.id) hnodup hhomes
  refine (List.filter_append_perm (fun r => decide (t.home? r = none)) uses).symm.trans
    (List.Perm.append_left _ (hgroups.trans (.of_eq (List.flatMap_congr fun s _ => ?_))))
  rw [List.filter_filter]
  refine List.filter_congr fun r _ => ?_
  cases t.home? r <;> simp

/-! ### The result -/

namespace TwoPass

variable {t : ScopeTree} {uses : List Reference}

/-- The references of the bindings of a scope are those whose home it is. -/
theorem perm_bound (hformed : t.Formed)
    (hbound : ∀ (i : Nat) s, t.scope? i = some s → ∀ b ∈ s.bindings,
      b.references =
        (uses.filter fun r => t.home? r = some i ∧ r.name = b.name).map (·.resolvedIn i))
    (hmade : ∀ r ∈ uses, r.resolved = none) {s : Scope} (hs : t.scope? s.id = some s) :
    (uses.filter fun r => t.home? r = some s.id).Perm
      (s.bindings.flatMap fun b => b.references.map (·.unresolved)) := by
  have hdeclared : ∀ r ∈ uses.filter (fun r => t.home? r = some s.id),
      r.name ∈ s.bindings.map (·.name) := by
    intro r hr
    have hhome : t.home? r = some s.id := of_decide_eq_true (List.mem_filter.mp hr).2
    have hdeclares := List.find?_some hhome
    rw [ScopeTree.declares_of_scope hs] at hdeclares
    exact Scope.declares_iff.mp hdeclares
  -- A scope has one binding of a name, so names group its references by bindings.
  refine (perm_groups Reference.name Binding.name (hformed.names_nodup s.id s hs)
    hdeclared).trans ?_
  refine List.Perm.of_eq (List.flatMap_congr fun b hb => ?_)
  rw [hbound s.id s hs b hb, List.map_map, List.filter_filter]
  rw [List.map_congr_left (g := id) fun r hr => ?_, List.map_id]
  · refine List.filter_congr fun r _ => ?_
    by_cases hn : r.name = b.name <;> simp [hn]
  · have hnone := hmade r (List.mem_filter.mp hr).1
    obtain ⟨_, _, _, _, _⟩ := r
    subst hnone
    rfl

/-- A reference that has passed through the global scope has no home. -/
theorem unresolved_eq (hformed : t.Formed) (hmade : ∀ r ∈ uses, r.origin < t.size)
    (hthrough : ∀ (i : Nat) s, t.scope? i = some s →
      s.through = uses.filter fun r =>
        i ∈ t.chain r.origin ∧ ∀ home ∈ t.home? r, home ≠ i ∧ home ∈ t.chain i) :
    t.unresolved = uses.filter fun r => t.home? r = none := by
  obtain ⟨s, hs⟩ := ScopeTree.scope?_isSome hformed.pos
  have hroot : t.unresolved = s.through := by
    rw [ScopeTree.unresolved, show t.scope? ScopeTree.rootId = some s from hs]
    rfl
  rw [hroot, hthrough _ s hs]
  refine List.filter_congr fun r hr => ?_
  rw [decide_eq_decide]
  constructor
  · rintro ⟨_, haround⟩
    -- No scope lies properly around the global one.
    refine Option.eq_none_iff_forall_ne_some.mpr fun home hhome => ?_
    obtain ⟨hne, hin⟩ := haround home hhome
    rw [show (0 : Nat) = ScopeTree.rootId from rfl, hformed.chain_root] at hin
    exact hne (List.mem_singleton.mp hin)
  · intro hnone
    refine ⟨hformed.root_mem_chain (hmade r hr), fun home hhome => ?_⟩
    rw [hnone] at hhome
    exact absurd hhome (Option.not_mem_none home)

/-- Every name of a scope has the references of that name whose home it is. -/
theorem referencesOf_eq (h : TwoPass t uses) {i : Nat} {s : Scope} (hs : t.scope? i = some s)
    (name : String) :
    s.referencesOf name =
      (uses.filter fun r => t.home? r = some i ∧ r.name = name).map (·.resolvedIn i) := by
  cases hb : s.binding? name with
  | some b =>
    have hname := Scope.binding?_name hb
    rw [Scope.referencesOf, hb, ← hname]
    exact h.bound i s hs b (List.mem_of_find?_eq_some hb)
  | none =>
    have hnone : uses.filter (fun r => t.home? r = some i ∧ r.name = name) = [] := by
      refine List.filter_eq_nil_iff.mpr fun r _ he => ?_
      obtain ⟨hhome, hn⟩ := of_decide_eq_true he
      have hdeclares := List.find?_some hhome
      rw [ScopeTree.declares_of_scope hs, hn, Scope.declares, hb] at hdeclares
      exact absurd hdeclares Bool.false_ne_true
    rw [Scope.referencesOf, hb, hnone]
    rfl

end TwoPass

/-- A finished walk has resolved its references as if all names had been declared
before. -/
theorem Walk.Reached.twoPass {source : Source} {span : Span} {w : Walk} {log : List Record}
    (h : Reached source span w log) (hclosed : w.stack = []) :
    TwoPass w.tree (referencesIn log) := by
  have hformed := h.formed.tree
  have hresolved := h.resolved
  have hbound : ∀ (i : Nat) s, w.tree.scope? i = some s → ∀ b ∈ s.bindings,
      b.references =
        ((referencesIn log).filter fun r => w.tree.home? r = some i ∧ r.name = b.name).map
          (·.resolvedIn i) := by
    intro i s hs b hb
    have hown : s.referencesOf b.name = b.references := by
      rw [Scope.referencesOf, Scope.binding?_of_mem (hformed.names_nodup i s hs) hb]
      rfl
    rw [← hown, hresolved.given i s hs, List.filter_filter]
    congr 1
    refine List.filter_congr fun r _ => ?_
    rw [Walk.settledIn_of_closed hclosed, Bool.decide_and, Bool.and_comm]
  have hthrough : ∀ (i : Nat) s, w.tree.scope? i = some s →
      s.through = (referencesIn log).filter fun r =>
        i ∈ w.tree.chain r.origin ∧ ∀ home ∈ w.tree.home? r, home ≠ i ∧ home ∈ w.tree.chain i := by
    intro i s hs
    rw [hresolved.through i s hs]
    refine List.filter_congr fun r hr => ?_
    rw [Bool.eq_iff_iff, decide_eq_true_iff]
    exact Walk.passed_of_closed hformed hclosed (hresolved.made r hr).1 i
  have hmade := fun r hr => (hresolved.made r hr).1
  refine ⟨hresolved.made, hbound, hthrough, ?_⟩
  rw [TwoPass.unresolved_eq hformed hmade hthrough]
  refine (hformed.perm_homes hmade).trans (List.Perm.append_left _ ?_)
  exact List.Perm.flatMap_left _ fun s hs => TwoPass.perm_bound hformed hbound
    (fun r hr => (hresolved.made r hr).2) (hformed.scope?_of_mem hs)

/-- **The scope tree of a program resolves its references as if all names had been
declared before.** -/
theorem analyze_twoPass (program : Program) : TwoPass (analyze program) program.references := by
  obtain ⟨w, hreached, htree, hclosed⟩ := analyze_reached program
  rw [← htree]
  exact hreached.twoPass hclosed

end ScopeLint
