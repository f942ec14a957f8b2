import Mathlib.Data.List.Nodup
import ScopeLint.Proofs.ScopeTree.Chain
import ScopeLint.Proofs.ScopeTree.Linked

/-! # Every scope is inspected once

The inspection of a formed tree keeps a stack, but it goes through the tree as a
plain recursion does: a scope, and then what lies inside it, the last child first
(`ScopeTree.inside`).  The scopes inside a scope are those whose chain meets it,
so from the global scope on every scope is met, and none twice.
-/

namespace ScopeLint

namespace ScopeTree

/-- The scopes directly inside a scope. -/
def childrenOf (t : ScopeTree) (id : Nat) : List ScopeId :=
  ((t.scope? id).map (·.children)).getD []

/-- A scope and the scopes inside it, `depth` levels at most, in the order
inspected. -/
def insideWithin (t : ScopeTree) : Nat → Nat → List ScopeId
  | 0, _ => []
  | depth + 1, id => id :: (t.childrenOf id).reverse.flatMap (t.insideWithin depth)

/-- A scope and the scopes inside it, in the order inspected. -/
def inside (t : ScopeTree) (id : Nat) : List ScopeId := t.insideWithin t.size id

/-! ### Children -/

theorem lt_of_parent {t : ScopeTree} {child id : Nat} (hp : t.parent? child = some id) :
    child < t.size := by
  rcases Nat.lt_or_ge child t.size with hlt | hge
  · exact hlt
  · rw [parent?, scope?_none hge] at hp
    cases hp

theorem childrenOf_of_scope {t : ScopeTree} {id : Nat} {s : Scope} (hs : t.scope? id = some s) :
    t.childrenOf id = s.children := by
  rw [childrenOf, hs]
  rfl

theorem Formed.mem_childrenOf {t : ScopeTree} (h : t.Formed) {id child : Nat} :
    child ∈ t.childrenOf id ↔ t.parent? child = some id := by
  constructor
  · intro hmem
    cases hs : t.scope? id with
    | none =>
      rw [childrenOf, hs] at hmem
      exact absurd hmem List.not_mem_nil
    | some s =>
      rw [childrenOf_of_scope hs, h.children_eq id s hs] at hmem
      exact of_decide_eq_true (List.mem_filter.mp hmem).2
  · intro hparent
    have hchild := lt_of_parent hparent
    have hlt := h.parent_lt child id hparent
    obtain ⟨s, hs⟩ := scope?_isSome (Nat.lt_trans hlt hchild)
    rw [childrenOf_of_scope hs, h.children_eq id s hs]
    exact List.mem_filter.mpr ⟨List.mem_range.mpr hchild, decide_eq_true hparent⟩

theorem Formed.childrenOf_increasing {t : ScopeTree} (h : t.Formed) (id : Nat) :
    (t.childrenOf id).Pairwise (fun a b : Nat => a < b) := by
  cases hs : t.scope? id with
  | none =>
    rw [childrenOf, hs]
    exact List.Pairwise.nil
  | some s =>
    rw [childrenOf_of_scope hs, h.children_eq id s hs]
    exact List.pairwise_lt_range.filter _

theorem Formed.childrenOf_nodup {t : ScopeTree} (h : t.Formed) (id : Nat) :
    (t.childrenOf id).Nodup :=
  (h.childrenOf_increasing id).imp fun hlt => Nat.ne_of_lt hlt

/-- On the way from a scope to one around it, the last step is from a child. -/
theorem Formed.exists_child_on_chain {t : ScopeTree} (h : t.Formed) {i j : Nat}
    (hj : j < t.size) (hi : i ∈ t.chain j) (hne : i ≠ j) :
    ∃ child : Nat, t.parent? child = some i ∧ child ∈ t.chain j := by
  induction j using Nat.strongRecOn with
  | ind j ih =>
    cases hp : t.parent? j with
    | none =>
      rw [h.chain_none hj hp, List.mem_singleton] at hi
      exact absurd hi hne
    | some p =>
      have hlt := h.parent_lt j p hp
      by_cases he : i = p
      · exact ⟨j, he ▸ hp, h.mem_chain_self hj⟩
      · rw [h.chain_some hj hp] at hi ⊢
        obtain ⟨child, hchild, hmem⟩ := ih p hlt (Nat.lt_trans hlt hj)
          ((List.mem_cons.mp hi).resolve_left hne) he
        exact ⟨child, hchild, List.mem_cons_of_mem _ hmem⟩

/-! ### What lies inside a scope -/

/-- A descent from scopes to their children, in any order, meets the same scopes from
some depth on: children have greater ids, and there are no ids from the size on. -/
theorem Formed.descent_eq {t : ScopeTree} (h : t.Formed) {next : Nat → List Nat}
    (hnext : ∀ id child : Nat, child ∈ next id → t.parent? child = some id)
    {descent : Nat → Nat → List Nat}
    (hdescent : ∀ depth id, descent (depth + 1) id = id :: (next id).flatMap (descent depth)) :
    ∀ m n id : Nat, t.size - id ≤ m → t.size - id ≤ n → id < t.size →
      descent m id = descent n id
  | 0, _, _, hm, _, hid => by omega
  | _ + 1, 0, _, _, hn, hid => by omega
  | m + 1, n + 1, id, hm, hn, hid => by
      rw [hdescent, hdescent]
      congr 1
      refine List.flatMap_congr fun child hchild => ?_
      have hparent := hnext id child hchild
      have hlt := h.parent_lt child id hparent
      have hsize := lt_of_parent hparent
      exact h.descent_eq hnext hdescent m n child (by omega) (by omega) hsize

theorem Formed.insideWithin_eq {t : ScopeTree} (h : t.Formed) {m n id : Nat}
    (hm : t.size - id ≤ m) (hn : t.size - id ≤ n) (hid : id < t.size) :
    t.insideWithin m id = t.insideWithin n id := by
  have hnext : ∀ id child : Nat, child ∈ (t.childrenOf id).reverse → t.parent? child = some id :=
    fun _ _ hchild => h.mem_childrenOf.mp (List.mem_reverse.mp hchild)
  exact h.descent_eq hnext (fun _ _ => rfl) m n id hm hn hid

theorem Formed.inside_eq {t : ScopeTree} (h : t.Formed) {id : Nat} (hid : id < t.size) :
    t.inside id = id :: (t.childrenOf id).reverse.flatMap t.inside :=
  h.insideWithin_eq (n := t.size + 1) (by omega) (by omega) hid

/-- Two children of one scope that lie on one chain are the same. -/
theorem Formed.eq_of_siblings {t : ScopeTree} (h : t.Formed) {id j a b : Nat} (hj : j < t.size)
    (ha : t.parent? a = some id) (hb : t.parent? b = some id) (haj : a ∈ t.chain j)
    (hbj : b ∈ t.chain j) : a = b := by
  have hapart : ∀ {c d : Nat}, t.parent? c = some id → t.parent? d = some id →
      c ∈ t.chain j → d ∈ t.chain j → ¬ c < d := by
    intro c d hc hd hcj hdj hlt
    -- The smaller one would lie on the chain of the greater one, so at or outside its parent.
    have hin := h.mem_chain_of_le hj hcj hdj (Nat.le_of_lt hlt)
    rw [h.chain_some (lt_of_parent hd) hd] at hin
    have hcid := (List.mem_cons.mp hin).resolve_left (Nat.ne_of_lt hlt)
    have hgt := h.parent_lt c id hc
    have hsize := lt_of_parent hc
    have hle := h.le_of_mem_chain (Nat.lt_trans hgt hsize) hcid
    omega
  have hle := hapart ha hb haj hbj
  have hge := hapart hb ha hbj haj
  omega

/-- **Inside a scope lie the scopes whose chain meets it**, each once. -/
theorem Formed.mem_inside {t : ScopeTree} (h : t.Formed) {id : Nat} (hid : id < t.size) :
    (t.inside id).Nodup ∧ ∀ j : Nat, j ∈ t.inside id ↔ j < t.size ∧ id ∈ t.chain j := by
  -- Children have greater ids, so the induction is on how many ids are left.
  induction hleft : t.size - id using Nat.strongRecOn generalizing id with
  | ind left ih =>
    have hchild : ∀ child : Nat, child ∈ t.childrenOf id → (t.inside child).Nodup ∧
        ∀ j : Nat, j ∈ t.inside child ↔ j < t.size ∧ child ∈ t.chain j := by
      intro child hmem
      have hparent := h.mem_childrenOf.mp hmem
      have hlt := h.parent_lt child id hparent
      have hsize := lt_of_parent hparent
      exact ih (t.size - child) (by omega) hsize rfl
    rw [h.inside_eq hid]
    constructor
    · refine List.nodup_cons.mpr ⟨fun hmem => ?_, List.nodup_flatMap.mpr ⟨fun child hmem =>
        (hchild child (List.mem_reverse.mp hmem)).1, ?_⟩⟩
      · obtain ⟨child, hmem, hin⟩ := List.mem_flatMap.mp hmem
        have hmem := List.mem_reverse.mp hmem
        have hlt := h.parent_lt child id (h.mem_childrenOf.mp hmem)
        have hle := h.le_of_mem_chain hid (((hchild child hmem).2 id).mp hin).2
        exact Nat.lt_irrefl _ (Nat.lt_of_lt_of_le hlt hle)
      · -- Two children with a scope in common lie on one chain, so one is the other.
        have hdistinct : (t.childrenOf id).reverse.Nodup :=
          List.nodup_reverse.mpr (h.childrenOf_nodup id)
        refine hdistinct.imp_of_mem fun {a b} ha hb hne j hja hjb => hne ?_
        have ha := List.mem_reverse.mp ha
        have hb := List.mem_reverse.mp hb
        obtain ⟨hjlt, hja⟩ := ((hchild a ha).2 j).mp hja
        obtain ⟨_, hjb⟩ := ((hchild b hb).2 j).mp hjb
        exact h.eq_of_siblings hjlt (h.mem_childrenOf.mp ha) (h.mem_childrenOf.mp hb) hja hjb
    · intro j
      rw [List.mem_cons, List.mem_flatMap]
      constructor
      · rintro (rfl | ⟨child, hmem, hin⟩)
        · exact ⟨hid, h.mem_chain_self hid⟩
        · have hmem := List.mem_reverse.mp hmem
          obtain ⟨hjlt, hon⟩ := ((hchild child hmem).2 j).mp hin
          have hparent := h.mem_childrenOf.mp hmem
          refine ⟨hjlt, h.mem_chain_trans hjlt hon ?_⟩
          rw [h.chain_some (lt_of_parent hparent) hparent]
          exact List.mem_cons_of_mem _ (h.mem_chain_self hid)
      · rintro ⟨hjlt, hon⟩
        by_cases he : j = id
        · exact Or.inl he
        · obtain ⟨child, hparent, hin⟩ := h.exists_child_on_chain hjlt hon (Ne.symm he)
          have hmem := h.mem_childrenOf.mpr hparent
          exact Or.inr ⟨child, List.mem_reverse.mpr hmem, ((hchild child hmem).2 j).mpr ⟨hjlt, hin⟩⟩

/-! ### The inspection -/

theorem Formed.linked {t : ScopeTree} (h : t.Formed) : t.Linked where
  pos := h.pos
  id_eq := h.id_eq
  root := h.parent?_root
  child := fun _ _ hs _ hc => h.mem_childrenOf.mp ((childrenOf_of_scope hs).symm ▸ hc)

/-- What lies inside a scope is in right-to-left preorder. -/
theorem Formed.rightToLeft_inside {t : ScopeTree} (h : t.Formed) {id : Nat} (hid : id < t.size) :
    t.RightToLeft [id] (t.inside id) := by
  -- Children have greater ids, so the induction is on how many ids are left.
  induction hleft : t.size - id using Nat.strongRecOn generalizing id with
  | ind left ih =>
    have hchild : ∀ child ∈ (t.childrenOf id).reverse, t.RightToLeft [child] (t.inside child) := by
      intro child hmem
      have hparent := h.mem_childrenOf.mp (List.mem_reverse.mp hmem)
      have hlt := h.parent_lt child id hparent
      have hsize := lt_of_parent hparent
      exact ih (t.size - child) (by omega) hsize rfl
    obtain ⟨s, hs⟩ := scope?_isSome hid
    have hinner := RightToLeft.flatMap hchild
    rw [childrenOf_of_scope hs] at hinner
    rw [h.inside_eq hid, childrenOf_of_scope hs, ← List.append_nil (List.flatMap ..)]
    exact .cons hs hinner .nil

/-- The inspection of a formed tree does not fail, and meets what lies inside the
global scope. -/
theorem Formed.inspectionOrder_eq {t : ScopeTree} (h : t.Formed) :
    t.inspectionOrder = .ok (t.inside rootId) := by
  obtain ⟨ids, hids, horder⟩ := h.linked.exists_rightToLeft
  rw [horder, hids.unique (h.rightToLeft_inside h.pos)]

/-- **The inspection of a formed tree meets every scope once.** -/
theorem Formed.inspectionOrder_perm {t : ScopeTree} (h : t.Formed) :
    ∃ ids : List Nat, t.inspectionOrder = .ok ids ∧ ids.Perm (List.range t.size) := by
  obtain ⟨hnodup, hmem⟩ := h.mem_inside h.pos
  refine ⟨t.inside rootId, h.inspectionOrder_eq, ?_⟩
  refine (List.perm_ext_iff_of_nodup hnodup List.nodup_range).mpr fun j => ?_
  rw [hmem j, List.mem_range]
  exact ⟨And.left, fun hj => ⟨hj, h.root_mem_chain hj⟩⟩

end ScopeTree

end ScopeLint
