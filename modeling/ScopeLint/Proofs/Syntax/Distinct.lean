import Mathlib.Data.List.Nodup
import Mathlib.Data.List.Pairwise
import ScopeLint.Proofs.Syntax.Labels

/-! # Nodes told apart

In a tree whose nodes are told apart by their ids a node stands in one place: nodes of one
id are one node (`Node.Distinct.node_unique`), and a node has one parent
(`Node.Distinct.parent_unique`).
-/

namespace ScopeLint.Syntax.Node

/-- **The nodes of a tree are told apart by their ids.** -/
def Distinct (node : Node) : Prop := (node.labels.map (·.id)).Nodup

namespace Distinct

variable {root a b c d n m : Node}

/-- What lies below a node does not have its id. -/
theorem ne_of_below (h : root.Distinct) (hc : c ∈ root.children) (hn : c.Holds n) :
    n.label.id ≠ root.label.id := by
  rw [Distinct, labels_eq, List.map_cons, List.nodup_cons] at h
  intro hid
  exact h.1 (hid ▸ List.mem_map_of_mem (labels_subset_labelsAll hc _ hn.label_mem))

/-- What lies below one child is told apart, and so is what lies below two. -/
theorem children (h : root.Distinct) : (∀ c ∈ root.children, c.Distinct) ∧
    root.children.Pairwise (Function.onFun List.Disjoint fun c => c.labels.map (·.id)) := by
  rw [Distinct, labels_eq, labelsAll_eq_flatMap, List.map_cons, List.nodup_cons,
    List.map_flatMap, List.nodup_flatMap] at h
  exact h.2

/-- Children that hold one node are the same. -/
theorem child_unique (h : root.Distinct) (hc : c ∈ root.children) (hd : d ∈ root.children)
    (hn : c.Holds n) (hm : d.Holds m) (hid : n.label.id = m.label.id) : c = d := by
  by_contra hne
  have hsymm : Std.Symm (Function.onFun List.Disjoint fun c : Node => c.labels.map (·.id)) :=
    ⟨fun _ _ hdisjoint _ hn hm => hdisjoint hm hn⟩
  refine h.children.2.forall hc hd hne (List.mem_map_of_mem hn.label_mem) ?_
  exact hid ▸ List.mem_map_of_mem hm.label_mem

theorem down (h : root.Distinct) (ha : root.Holds a) : a.Distinct := by
  induction ha with
  | self => exact h
  | child hc _ ih => exact ih (h.children.1 _ hc)

/-- Of two nodes with one node at or below both, one holds the other. -/
theorem holds_or_holds (h : root.Distinct) (ha : root.Holds a) (hb : root.Holds b)
    (hn : a.Holds n) (hm : b.Holds m) (hid : n.label.id = m.label.id) :
    a.Holds b ∨ b.Holds a := by
  induction ha with
  | self => exact .inl hb
  | @child root c a hc ha ih =>
    cases hb with
    | self => exact .inr (.child hc ha)
    | @child _ d _ hd hb =>
      obtain rfl := h.child_unique hc hd (ha.trans hn) (hb.trans hm) hid
      exact ih (h.children.1 _ hc) hb hn

/-- **There is one node of an id.** -/
theorem node_unique (h : root.Distinct) (ha : root.Holds a) (hb : root.Holds b)
    (hid : a.label.id = b.label.id) : a = b := by
  have hone : ∀ {a b : Node}, root.Holds a → a.Holds b → a.label.id = b.label.id → a = b := by
    intro a b ha hab hid
    cases hab with
    | self => rfl
    | child hc hb => exact absurd hid.symm ((h.down ha).ne_of_below hc hb)
  rcases h.holds_or_holds ha hb (.self a) (.self b) hid with hab | hba
  · exact hone ha hab hid
  · exact (hone hb hba hid.symm).symm

/-- **A node is a child of one node.** -/
theorem parent_unique (h : root.Distinct) (ha : root.Holds a) (hb : root.Holds b)
    (hca : c ∈ a.children) (hcb : c ∈ b.children) : a = b := by
  have hone : ∀ {a b : Node}, root.Holds a → a.Holds b → c ∈ a.children → c ∈ b.children →
      a = b := by
    intro a b ha hab hca hcb
    cases hab with
    | self => rfl
    | @child _ d _ hd hb =>
      -- The child on the way down is the node itself, so the node would hold its parent.
      obtain rfl := (h.down ha).child_unique hd hca (hb.down hcb) (.self c) rfl
      exact absurd rfl (((h.down ha).down (.child hd hb)).ne_of_below hcb hb)
  rcases h.holds_or_holds ha hb (.child hca (.self c)) (.child hcb (.self c)) rfl with hab | hba
  · exact hone ha hab hca hcb
  · exact (hone hb hba hcb hca).symm

end Distinct

end ScopeLint.Syntax.Node
