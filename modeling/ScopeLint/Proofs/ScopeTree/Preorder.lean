import Mathlib.Data.List.Perm.Basic
import ScopeLint.Proofs.ScopeTree.Inspection

/-! # Scopes numbered in preorder

The **preorder** of a scope (`ScopeTree.preorder`) is the scope, and then the
preorders of its children in order.  A tree is **numbered in preorder**
(`ScopeTree.Numbered`) when each scope was opened inside the scope numbered before
it, or inside one around that; this is what one step of a walk keeps.  In such a
formed tree a scope around a later one lies around all in between
(`Formed.mem_chain_of_between`), so the preorder of a scope counts up from the
scope without a gap (`Formed.preorder_eq_range'`).
-/

namespace ScopeLint

/-- An increasing list of numbers from `start` on that skips none counts up. -/
theorem eq_range'_of_increasing : ∀ (ids : List Nat) {start : Nat},
    ids.Pairwise (· < ·) → (∀ j ∈ ids, start ≤ j) →
      (∀ j ∈ ids, ∀ k, start ≤ k → k ≤ j → k ∈ ids) → ids = List.range' start ids.length
  | [], _, _, _, _ => rfl
  | first :: rest, start, hpair, hle, hfull => by
      obtain ⟨hfirst, hrest⟩ := List.pairwise_cons.mp hpair
      have hstart : first = start := by
        have hge := hle first (List.mem_cons_self ..)
        have hmem := hfull first (List.mem_cons_self ..) start (Nat.le_refl _) hge
        rcases List.mem_cons.mp hmem with he | hmem
        · exact he.symm
        · have hlt := hfirst start hmem
          omega
      subst hstart
      have ih := @eq_range'_of_increasing rest (first + 1) hrest hfirst
        fun j hj k hk hkj => by
          have hmem := hfull j (List.mem_cons_of_mem _ hj) k (Nat.le_of_succ_le hk) hkj
          exact (List.mem_cons.mp hmem).resolve_left (by omega)
      rw [List.length_cons, List.range'_succ, ← ih]

namespace ScopeTree

/-- A scope and the scopes inside it, `depth` levels at most, in preorder. -/
def preorderWithin (t : ScopeTree) : Nat → Nat → List ScopeId
  | 0, _ => []
  | depth + 1, id => id :: (t.childrenOf id).flatMap (t.preorderWithin depth)

/-- **The preorder of a scope**: the scope and the scopes inside it, a scope before
its children and these in order. -/
def preorder (t : ScopeTree) (id : Nat) : List ScopeId := t.preorderWithin t.size id

/-- **Scopes are numbered in preorder**: each stands inside the one before it, or
inside one around that. -/
def Numbered (t : ScopeTree) : Prop :=
  ∀ i p : Nat, t.parent? (i + 1) = some p → p ∈ t.chain i

/-! ### The scopes of a preorder -/

/-- A preorder holds what an inspection of the scope meets. -/
theorem preorderWithin_perm (t : ScopeTree) : ∀ depth id : Nat,
    (t.preorderWithin depth id).Perm (t.insideWithin depth id)
  | 0, _ => .nil
  | depth + 1, id => by
      refine List.Perm.cons id ?_
      refine (List.Perm.flatMap_left _ fun child _ => preorderWithin_perm t depth child).trans ?_
      exact (List.reverse_perm _).symm.flatMap_right _

theorem Formed.mem_preorder {t : ScopeTree} (h : t.Formed) {id j : Nat} (hid : id < t.size) :
    j ∈ t.preorder id ↔ j < t.size ∧ id ∈ t.chain j := by
  rw [← (h.mem_inside hid).2 j]
  exact (preorderWithin_perm t t.size id).mem_iff

theorem Formed.preorder_eq {t : ScopeTree} (h : t.Formed) {id : Nat} (hid : id < t.size) :
    t.preorder id = id :: (t.childrenOf id).flatMap t.preorder := by
  have hnext : ∀ id child : Nat, child ∈ t.childrenOf id → t.parent? child = some id :=
    fun _ _ hchild => h.mem_childrenOf.mp hchild
  have hunfold : t.preorderWithin t.size id = t.preorderWithin (t.size + 1) id :=
    h.descent_eq hnext (fun _ _ => rfl) _ _ id (by omega) (by omega) hid
  rw [preorder, hunfold]
  rfl

/-! ### Preorders count up -/

/-- **A scope around a later one lies around all scopes in between.** -/
theorem Formed.mem_chain_of_between {t : ScopeTree} (h : t.Formed) (hnumbered : t.Numbered)
    {i j k : Nat} (hj : j < t.size) (hi : i ∈ t.chain j) (hik : i ≤ k) (hkj : k ≤ j) :
    i ∈ t.chain k := by
  obtain ⟨d, rfl⟩ := Nat.exists_eq_add_of_le hkj
  clear hkj
  induction d with
  | zero => exact hi
  | succ d ih =>
    -- One step back: the scope stands inside the one before it, or inside one around that.
    obtain ⟨p, hp⟩ := h.inner (k + (d + 1)) (by omega) hj
    rw [h.chain_some hj hp] at hi
    have hout := (List.mem_cons.mp hi).resolve_left (by omega)
    have hbefore : k + d < t.size := by omega
    exact ih hbefore (h.mem_chain_trans hbefore (hnumbered (k + d) p hp) hout)

/-- A preorder goes up. -/
theorem Formed.preorder_increasing {t : ScopeTree} (h : t.Formed) (hnumbered : t.Numbered)
    {id : Nat} (hid : id < t.size) : (t.preorder id).Pairwise (fun a b : Nat => a < b) := by
  induction hleft : t.size - id using Nat.strongRecOn generalizing id with
  | ind left ih =>
    have hchild : ∀ child : Nat, child ∈ t.childrenOf id →
        t.parent? child = some id ∧ id < child ∧ child < t.size := by
      intro child hmem
      have hparent := h.mem_childrenOf.mp hmem
      exact ⟨hparent, h.parent_lt child id hparent, lt_of_parent hparent⟩
    have hinside : ∀ child : Nat, child ∈ t.childrenOf id →
        ∀ j : Nat, j ∈ t.preorder child → child ≤ j := by
      intro child hmem j hj
      obtain ⟨hjlt, hon⟩ := (h.mem_preorder (hchild child hmem).2.2).mp hj
      exact h.le_of_mem_chain hjlt hon
    rw [h.preorder_eq hid]
    refine List.pairwise_cons.mpr ⟨?_, List.pairwise_flatMap.mpr ⟨?_, ?_⟩⟩
    · intro j hj
      obtain ⟨child, hmem, hj⟩ := List.mem_flatMap.mp hj
      exact Nat.lt_of_lt_of_le (hchild child hmem).2.1 (hinside child hmem j hj)
    · intro child hmem
      obtain ⟨_, hlt, hsize⟩ := hchild child hmem
      exact ih (t.size - child) (by omega) hsize rfl
    · -- What lies inside an earlier child comes before the next child.
      refine (h.childrenOf_increasing id).imp_of_mem fun {a b} ha hb hab j hj k hk => ?_
      obtain ⟨hja, hona⟩ := (h.mem_preorder (hchild a ha).2.2).mp hj
      have hbk := hinside b hb k hk
      rcases Nat.lt_or_ge j b with hjb | hbj
      · omega
      · have haround := h.mem_chain_of_between hnumbered hja hona (Nat.le_of_lt hab) hbj
        have hsame := h.eq_of_siblings (hchild b hb).2.2 (hchild a ha).1 (hchild b hb).1 haround
          (h.mem_chain_self (hchild b hb).2.2)
        exact absurd hsame (Nat.ne_of_lt hab)

/-- **The preorder of a scope counts up from it.** -/
theorem Formed.preorder_eq_range' {t : ScopeTree} (h : t.Formed) (hnumbered : t.Numbered)
    {id : Nat} (hid : id < t.size) :
    t.preorder id = List.range' id (t.preorder id).length := by
  refine eq_range'_of_increasing _ (h.preorder_increasing hnumbered hid) ?_ ?_
  · intro j hj
    obtain ⟨hjlt, hon⟩ := (h.mem_preorder hid).mp hj
    exact h.le_of_mem_chain hjlt hon
  · intro j hj k hk hkj
    obtain ⟨hjlt, hon⟩ := (h.mem_preorder hid).mp hj
    exact (h.mem_preorder hid).mpr
      ⟨by omega, h.mem_chain_of_between hnumbered hjlt hon hk hkj⟩

/-- From the global scope on, the preorder is the order of the ids. -/
theorem Formed.preorder_root {t : ScopeTree} (h : t.Formed) (hnumbered : t.Numbered) :
    t.preorder rootId = List.range t.size := by
  have hrange := h.preorder_eq_range' hnumbered h.pos
  have hmem : ∀ j : Nat, j ∈ t.preorder 0 ↔ j < t.size := fun j =>
    (h.mem_preorder h.pos).trans ⟨And.left, fun hj => ⟨hj, h.root_mem_chain hj⟩⟩
  have hlength : (t.preorder 0).length = t.size := by
    rw [hrange] at hmem
    generalize (t.preorder 0).length = n at hmem
    have hn := hmem n
    have hsize := hmem t.size
    simp only [List.mem_range'_1] at hn hsize
    omega
  rw [hlength, ← List.range_eq_range'] at hrange
  exact hrange

end ScopeTree

end ScopeLint
