import ScopeLint.Proofs.Walk.Corresponding

/-! # Names count by their equality only

One syntax tree may stand over two texts: that of a program, and one in which its names are
spelled otherwise.  If nodes that are mentioned have equal texts in the first just when they
do in the second, then the second text renames the names of the first consistently
(`Syntax.rename`), and the scope trees correspond node for node.

No range of the tree has to be valid in either text: a node whose range is not has the empty
text, and that is a name like any other.
-/

namespace ScopeLint

open Syntax (Field Identifier Kind Label Node SourceType)

namespace Syntax

/-- Nodes with equal names over the first text are those with equal names over the second. -/
def NamedAlike (source source' : Source) (nodes : List Label) : Prop :=
  ∀ l ∈ nodes, ∀ m ∈ nodes,
    source.textOf l.span = source.textOf m.span ↔ source'.textOf l.span = source'.textOf m.span

instance (source source' : Source) (nodes : List Label) :
    Decidable (NamedAlike source source' nodes) :=
  inferInstanceAs (Decidable (∀ l ∈ nodes, ∀ m ∈ nodes, _))

/-- The names of identifiers at nodes are equal just when the texts of the nodes are. -/
theorem Identifier.name_ofLabel_eq_iff (source : Source) (l m : Label) :
    (ofLabel source l).name = (ofLabel source m).name ↔
      source.textOf l.span = source.textOf m.span :=
  ⟨fun h => String.ofList_injective h, congrArg String.ofList⟩

/-- **The renaming** that leads from the names of some nodes over one text to their names over
another; other names stay. -/
def rename (source source' : Source) (nodes : List Label) (name : String) : String :=
  match nodes.find? fun l => (Identifier.ofLabel source l).name = name with
  | some l => (Identifier.ofLabel source' l).name
  | none => name

/-- A renaming takes the name of each node to its other name. -/
theorem rename_name {source source' : Source} {nodes : List Label}
    (halike : NamedAlike source source' nodes) {l : Label} (hl : l ∈ nodes) :
    rename source source' nodes (Identifier.ofLabel source l).name =
      (Identifier.ofLabel source' l).name := by
  unfold rename
  cases hfind : nodes.find? fun m =>
      (Identifier.ofLabel source m).name = (Identifier.ofLabel source l).name with
  | none =>
    have hnone := List.find?_eq_none.mp hfind l hl
    exact absurd (decide_eq_true rfl) hnone
  | some m =>
    have hname : (Identifier.ofLabel source m).name = (Identifier.ofLabel source l).name := by
      have hfound := List.find?_some hfind
      exact of_decide_eq_true hfound
    have htext := (Identifier.name_ofLabel_eq_iff source m l).mp hname
    have htext' := (halike m (List.mem_of_find?_eq_some hfind) l hl).mp htext
    exact (Identifier.name_ofLabel_eq_iff source' m l).mpr htext'

/-- What stands over one text stands over the other under its other name: the identifiers at
one of some nodes. -/
def Identifier.Renamed (source source' : Source) (nodes : List Label) (i i' : Identifier) : Prop :=
  ∃ l ∈ nodes, i = ofLabel source l ∧ i' = ofLabel source' l ∧
    i'.name = rename source source' nodes i.name

theorem Identifier.Renamed.faithful {source source' : Source} {nodes : List Label}
    (halike : NamedAlike source source' nodes) : Faithful (Renamed source source' nodes) := by
  rintro i i' j j' ⟨l, hl, rfl, rfl, _⟩ ⟨m, hm, rfl, rfl, _⟩
  rw [name_ofLabel_eq_iff, name_ofLabel_eq_iff]
  exact halike l hl m hm

end Syntax

/-- **Analysis depends on names through their equality only.**  Over two texts in which the
nodes that a tree mentions have equal names alike, the scope trees agree in all but the names
and positions of identifiers, and the names of the second are those of the first, renamed.  The
renaming gives different names to different names. -/
theorem analyze_renamed (root : Node) (sourceType : SourceType) (source source' : Source)
    (halike : Syntax.NamedAlike source source' (mentionsAll (root.outline .contents))) :
    (analyze ⟨source, root, sourceType⟩).Corresponds
        (Identifier.Renamed source source' (mentionsAll (root.outline .contents)))
        (analyze ⟨source', root, sourceType⟩) ∧
      ∀ l ∈ mentionsAll (root.outline .contents), ∀ m ∈ mentionsAll (root.outline .contents),
        Syntax.rename source source' (mentionsAll (root.outline .contents))
            (Identifier.ofLabel source l).name =
          Syntax.rename source source' (mentionsAll (root.outline .contents))
            (Identifier.ofLabel source m).name →
        (Identifier.ofLabel source l).name = (Identifier.ofLabel source m).name := by
  constructor
  · have hmentions := Syntax.Program.mentionsAll_outline ⟨source, root, sourceType⟩
    have houtline := (Syntax.Program.outline_valued ⟨source, root, sourceType⟩).paired
    have hself : Entry.Corresponds
        (fun l l' => l' = l ∧ l ∈ mentionsAll (root.outline .contents)) _ _ :=
      houtline.corresponds_self fun l hl => hmentions ▸ hl
    refine analyze_corresponds (Identifier.Renamed.faithful halike) rfl ?_ hself
    rintro _ l ⟨rfl, hl⟩
    exact ⟨l, hl, rfl, rfl, (Syntax.rename_name halike hl).symm⟩
  · intro l hl m hm hrename
    rw [Syntax.rename_name halike hl, Syntax.rename_name halike hm,
      Identifier.name_ofLabel_eq_iff] at hrename
    exact (Identifier.name_ofLabel_eq_iff source l m).mpr ((halike l hl m hm).mpr hrename)

namespace Renaming

/-- Its tree, to which a use of another name is added. -/
def root : Node :=
  .node (.onFirstLine 0 .program 0 10 [])
    [.node (.onFirstLine 1 .arrowFunction 0 6 [])
      [.node (.onFirstLine 2 .identifier 0 1 [.parameter]) [],
        .node (.onFirstLine 3 .identifier 5 6 [.body]) []],
      .node (.onFirstLine 4 .identifier 8 10 []) []]

end Renaming

/-- `x => x; no` and `y => y; an` are analyzed alike. -/
theorem analyze_renamed_argument :
    Syntax.NamedAlike (Source.ofText "x => x; no") (Source.ofText "y => y; an")
        (mentionsAll (Renaming.root.outline .contents)) ∧
      (analyze ⟨Source.ofText "x => x; no", Renaming.root, .module⟩).Corresponds
        (Identifier.Renamed (Source.ofText "x => x; no") (Source.ofText "y => y; an")
          (mentionsAll (Renaming.root.outline .contents)))
        (analyze ⟨Source.ofText "y => y; an", Renaming.root, .module⟩) := by
  have halike : Syntax.NamedAlike (Source.ofText "x => x; no") (Source.ofText "y => y; an")
      (mentionsAll (Renaming.root.outline .contents)) := by decide +kernel
  exact ⟨halike, (analyze_renamed Renaming.root .module _ _ halike).1⟩

end ScopeLint
