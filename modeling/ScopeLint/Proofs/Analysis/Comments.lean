import ScopeLint.Proofs.Outline.Comments
import ScopeLint.Proofs.Walk.Corresponding
import ScopeLint.Rule.NoUndefined

/-! # Comments do not change the analysis

The outline of a tree without some of its comments is that of the whole tree, numbered anew.  So
the two scope trees correspond, identifier for identifier, and the rule that reads them reports
the same in both.  Identifiers are compared by all but their ids (`Identifier.Alike`): two
parses number their nodes each in its own way.
-/

namespace ScopeLint

open Syntax (Field Identifier Kind Label Node Program SourceType)

/-- **Identifiers with one text at one place**, whatever their ids. -/
structure Syntax.Identifier.Alike (i i' : Identifier) : Prop where
  name : i'.name = i.name
  kind : i'.kind = i.kind
  span : i'.span = i.span
  start : i'.start = i.start

theorem Syntax.Identifier.alike_faithful : Faithful Identifier.Alike := by
  intro i i' j j' hi hj
  rw [hi.name, hj.name]

theorem Syntax.Identifier.alike_renumber (source : Source) (f : Nat → Nat) (l : Label) :
    (Identifier.ofLabel source l).Alike (.ofLabel source (l.renumber f)) :=
  ⟨rfl, rfl, rfl, rfl⟩

/-! ### Outlines -/

mutual

theorem Entry.corresponds_renumber_cons (f : Nat → Nat) : ∀ (e : Entry) {rest rest' : List Entry},
    Corresponds (fun l l' => l' = l.renumber f) rest rest' →
      Corresponds (fun l l' => l' = l.renumber f) (e :: rest) (e.renumber f :: rest')
  | .definition _ kind, _, _, h => .definition kind rfl h
  | .reference _ access init, _, _, h => .reference access init rfl h
  | .scope kind span es, _, _, h => .scope kind span (corresponds_renumber f es) h

/-- Entries numbered anew correspond to the entries. -/
theorem Entry.corresponds_renumber (f : Nat → Nat) : ∀ es : List Entry,
    Corresponds (fun l l' => l' = l.renumber f) es (renumberAll f es)
  | [] => .nil
  | e :: rest => corresponds_renumber_cons f e (corresponds_renumber f rest)

end

theorem Syntax.Program.outline_uncommented {f : Nat → Nat} (hf : Function.Injective f)
    {root root' : Node} (h : root.Uncommented f root') (hloose : root.CommentsLoose)
    (source : Source) (sourceType : SourceType) :
    outline ⟨source, root', sourceType⟩ =
      Entry.renumberAll f (outline ⟨source, root, sourceType⟩) := by
  have hentries := ScopeLint.outline_uncommented hf root h hloose .contents
  rw [← Entry.renumberAll_eq] at hentries
  cases sourceType with
  | script => exact hentries
  | module =>
    show [Entry.scope .module root'.label.span (root'.outline .contents)] =
      [Entry.scope .module root.label.span (Entry.renumberAll f (root.outline .contents))]
    rw [← hentries, h.label_eq]
    rfl

/-! ### Reports -/

namespace NoUndefined

variable {same : Identifier → Identifier → Prop} {t t' : ScopeTree}

theorem usesIn_corresponds (hname : ∀ i i', same i i' → i'.name = i.name) {s s' : Scope}
    (h : s.Corresponds same s') : List.Forall₂ same (usesIn s) (usesIn s') := by
  have hbinding : Option.Rel (Binding.Corresponds same) (s.binding? word) (s'.binding? word) := by
    refine rel_find?_binding (fun b b' hb => ?_) h.bindings
    obtain ⟨i, i', hi, hb, hb'⟩ := hb.name
    rw [hb, hb', hname i i' hi]
  unfold usesIn
  rcases rel_cases hbinding with ⟨hnone, hnone'⟩ | ⟨b, b', hb, hb', hbb⟩
  · rw [hnone, hnone']
    exact .nil
  · rw [hb, hb']
    have huses := List.rel_filter (p := fun r : Reference => !r.init)
      (q := fun r : Reference => !r.init)
      (fun r r' hr => by
        show (!r.init) = true ↔ (!r'.init) = true
        rw [hr.init])
      hbb.references
    exact List.rel_append (List.rel_map (fun _ _ hr => hr.identifier) huses)
      (List.rel_map (fun _ _ hd => hd.name) hbb.definitions)

theorem freeUses_corresponds (hname : ∀ i i', same i i' → i'.name = i.name)
    (h : t.Corresponds same t') : List.Forall₂ same (freeUses t) (freeUses t') := by
  have huses := List.rel_filter (p := fun r : Reference => r.name == word)
    (q := fun r : Reference => r.name == word)
    (fun r r' hr => by
      have hr : r'.name = r.name := hname _ _ hr.identifier
      show (r.name == word) = true ↔ (r'.name == word) = true
      rw [hr])
    h.unresolved
  exact List.rel_map (fun _ _ hr => hr.identifier) huses

theorem boundUses_corresponds (hname : ∀ i i', same i i' → i'.name = i.name)
    (h : t.Corresponds same t') : List.Forall₂ same (boundUses t) (boundUses t') := by
  unfold boundUses
  rw [h.inspectionOrder]
  cases t.inspectionOrder with
  | error _ => exact .nil
  | ok ids =>
    refine List.rel_flatMap (R := Eq) (List.forall₂_same.mpr fun _ _ => rfl) ?_
    rintro id _ rfl
    show List.Forall₂ same (((t.scope? id).map usesIn).getD [])
      (((t'.scope? id).map usesIn).getD [])
    rcases rel_cases (h.rel_scope? id) with ⟨hnone, hnone'⟩ | ⟨s, s', hs, hs', hss⟩
    · rw [hnone, hnone']
      exact .nil
    · rw [hs, hs']
      exact usesIn_corresponds hname hss

/-- **Corresponding scope trees have corresponding reports**, one by one. -/
theorem check_corresponds (hname : ∀ i i', same i i' → i'.name = i.name)
    (h : t.Corresponds same t') :
    List.Forall₂ (fun r r' => same r.node r'.node ∧ r'.message = r.message)
      (rule.check t) (rule.check t') :=
  List.rel_map (fun _ _ hi => ⟨hi, rfl⟩)
    (List.rel_append (freeUses_corresponds hname h) (boundUses_corresponds hname h))

end NoUndefined

/-- **Comments do not change the analysis.**  Of a tree without some of its comments, numbered
anew, the scopes are those of the whole tree with the same definitions and uses in them, and the
rule reports the same: identifiers agree in text, kind, span and position. -/
theorem analyze_uncommented {f : Nat → Nat} (hf : Function.Injective f) {root root' : Node}
    (h : root.Uncommented f root') (hloose : root.CommentsLoose) (source : Source)
    (sourceType : SourceType) :
    (analyze ⟨source, root, sourceType⟩).Corresponds Identifier.Alike
        (analyze ⟨source, root', sourceType⟩) ∧
      List.Forall₂ (fun r r' => r.node.Alike r'.node ∧ r'.message = r.message)
        (NoUndefined.rule.check (analyze ⟨source, root, sourceType⟩))
        (NoUndefined.rule.check (analyze ⟨source, root', sourceType⟩)) := by
  have hspan : root'.label.span = root.label.span := by
    rw [h.label_eq]
    rfl
  have houtline : Entry.Corresponds (fun l l' => l' = l.renumber f)
      (Program.outline ⟨source, root, sourceType⟩)
      (Program.outline ⟨source, root', sourceType⟩) := by
    rw [Program.outline_uncommented hf h hloose]
    exact Entry.corresponds_renumber f _
  have htrees : (analyze ⟨source, root, sourceType⟩).Corresponds Identifier.Alike
      (analyze ⟨source, root', sourceType⟩) := by
    refine analyze_corresponds Identifier.alike_faithful hspan ?_ houtline
    rintro l _ rfl
    exact Identifier.alike_renumber source f l
  exact ⟨htrees, NoUndefined.check_corresponds (fun _ _ hi => hi.name) htrees⟩

namespace Commented

/-- Its parameter. -/
def parameter : Node := .node (.onFirstLine 2 .identifier 0 1 [.parameter]) []

/-- Its body. -/
def body : Node := .node (.onFirstLine 3 .identifier 11 12 [.body]) []

/-- The comment. -/
def comment : Node := .node (.onFirstLine 4 .comment 5 9 []) []

/-- The function. -/
def function : Node := .node (.onFirstLine 1 .arrowFunction 0 12 []) [parameter, comment, body]

/-- Its tree. -/
def root : Node := .node (.onFirstLine 0 .program 0 12 []) [function]

/-- Its tree without the comment. -/
def bare : Node :=
  .node (.onFirstLine 0 .program 0 12 [])
    [.node (.onFirstLine 1 .arrowFunction 0 12 []) [parameter, body]]

/-- A node without children is uncommented as it is. -/
theorem leaf_uncommented (l : Label) : (Node.node l []).Uncommented id (.node l []) :=
  .node l .nil

theorem root_uncommented : root.Uncommented id bare :=
  .node _ (.keep (.node _ (.keep (leaf_uncommented _)
    (.drop rfl (.keep (leaf_uncommented _) .nil)))) .nil)

theorem leaf_loose (l : Label) : (Node.node l []).CommentsLoose :=
  .node ⟨by simp, by simp, by simp [Node.namedLabels]⟩ (by simp)

theorem root_loose : root.CommentsLoose := by
  have hfunction : function.CommentsLoose := by
    refine .node ⟨?_, ?_, ?_⟩ ?_
    all_goals simp [parameter, comment, body, Label.onFirstLine, Node.label, Node.children,
      leaf_loose]
  refine .node ⟨?_, ?_, ?_⟩ ?_
  case refine_4 => simpa using hfunction
  all_goals simp [function, Label.onFirstLine, Node.label, Kind.program]

end Commented

/-- In `x => /**/  x` the comment may be left out. -/
theorem analyze_uncommented_function :
    Function.Injective (id : Nat → Nat) ∧ Commented.root.Uncommented id Commented.bare ∧
      Commented.root.CommentsLoose ∧
      (analyze ⟨Source.ofText "x => /**/  x", Commented.root, .module⟩).Corresponds Identifier.Alike
        (analyze ⟨Source.ofText "x => /**/  x", Commented.bare, .module⟩) :=
  ⟨Function.injective_id, Commented.root_uncommented, Commented.root_loose,
    (analyze_uncommented Function.injective_id Commented.root_uncommented Commented.root_loose
      (Source.ofText "x => /**/  x") .module).1⟩

end ScopeLint
