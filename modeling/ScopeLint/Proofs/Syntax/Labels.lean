import ScopeLint.Syntax.Node

/-! # The nodes of a tree and their labels -/

namespace ScopeLint.Syntax

/-- The nodes of a tree, the root among them. -/
inductive Node.Holds : Node → Node → Prop
  | self (node : Node) : Holds node node
  | child {node c part : Node} (hc : c ∈ node.children) (h : Holds c part) : Holds node part

namespace Node

/-- With a node a tree holds the children of that. -/
theorem Holds.down {root node c : Node} (h : root.Holds node) (hc : c ∈ node.children) :
    root.Holds c := by
  induction h with
  | self => exact .child hc (.self c)
  | child hmem _ ih => exact .child hmem (ih hc)

theorem labels_eq (node : Node) : node.labels = node.label :: labelsAll node.children := by
  cases node
  rfl

theorem label_mem (node : Node) : node.label ∈ node.labels := by
  rw [node.labels_eq]
  exact List.mem_cons_self ..

theorem labels_subset_labelsAll {c : Node} : ∀ {nodes : List Node}, c ∈ nodes →
    ∀ l ∈ c.labels, l ∈ labelsAll nodes
  | d :: rest, hc, l, hl => by
      rw [labelsAll]
      rcases List.mem_cons.mp hc with rfl | hc
      · exact List.mem_append_left _ hl
      · exact List.mem_append_right _ (labels_subset_labelsAll hc l hl)

/-- The labels below a child lie below its parent. -/
theorem mem_labels_of_child {node c : Node} {l : Label} (hc : c ∈ node.children)
    (hl : l ∈ c.labels) : l ∈ node.labels := by
  rw [node.labels_eq]
  exact List.mem_cons_of_mem _ (labels_subset_labelsAll hc l hl)

theorem labelsAll_eq_flatMap : ∀ nodes : List Node, labelsAll nodes = nodes.flatMap labels
  | [] => rfl
  | c :: rest => by rw [labelsAll, labelsAll_eq_flatMap rest, List.flatMap_cons]

theorem Holds.label_mem {root node : Node} (h : root.Holds node) : node.label ∈ root.labels := by
  induction h with
  | self node => exact node.label_mem
  | child hc _ ih => exact mem_labels_of_child hc ih

theorem Holds.trans {root a b : Node} (ha : root.Holds a) (hb : a.Holds b) : root.Holds b := by
  induction ha with
  | self => exact hb
  | child hc _ ih => exact .child hc (ih hb)

end Node

end ScopeLint.Syntax
