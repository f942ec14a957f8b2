import ScopeLint.Proofs.Syntax.Labels
import ScopeLint.Proofs.Syntax.Respelled
import ScopeLint.Proofs.Text.Positions

/-! # Which programs are accepted, and where the others fail

The search for a bad node enters marked nodes only.  When the parser marks the nodes
that are or hold a bad one (`Node.Marked`), the search misses none: it finds the
first bad label of the tree (`Node.firstBad?_eq`).  When ranges are nested and
children stand in document order (`Node.Ordered`), the labels of a tree are in the
order of their starts, so the first bad node is also the one that starts first.

A text can always be respelled (`Respelling.exists_respelled`), so that a text is
accepted is a matter of two trees: its own, and that of the respelled text.
-/

namespace ScopeLint.Syntax

namespace Node

/-- **The parser marks the nodes that are or hold a bad one**, and no others. -/
inductive Marked : Node → Prop
  | node {label : Label} {children : List Node}
      (mark : label.hasError = true ↔ ∃ l ∈ (node label children).labels, isBad l = true)
      (below : ∀ c ∈ children, c.Marked) : Marked (node label children)

/-- **Children stand in document order**, within the range of their parent. -/
inductive Ordered : Node → Prop
  | node {label : Label} {children : List Node}
      (span : label.span.start ≤ label.span.stop)
      (within : ∀ c ∈ children,
        label.span.start ≤ c.label.span.start ∧ c.label.span.stop ≤ label.span.stop)
      (order : children.Pairwise fun c d => c.label.span.stop ≤ d.label.span.start)
      (below : ∀ c ∈ children, c.Ordered) : Ordered (node label children)

/-- A tree without a bad node. -/
def Faultless (root : Node) : Prop := ∀ l ∈ root.labels, isBad l = false

instance (root : Node) : Decidable root.Faultless :=
  inferInstanceAs (Decidable (∀ l ∈ root.labels, isBad l = false))

/-- A label is the first bad one of a tree, in preorder. -/
def FirstBad (root : Node) (bad : Label) : Prop :=
  ∃ before after, root.labels = before ++ bad :: after ∧ isBad bad = true ∧
    ∀ l ∈ before, isBad l = false

theorem Marked.of_nil {label : Label} (h : label.hasError = isBad label) :
    Marked (.node label []) := by
  refine .node ?_ fun _ hc => absurd hc List.not_mem_nil
  rw [h, labels, labelsAll]
  simp

theorem Ordered.of_nil {label : Label} (h : label.span.start ≤ label.span.stop) :
    Ordered (.node label []) :=
  .node h (fun _ hc => absurd hc List.not_mem_nil) .nil fun _ hc => absurd hc List.not_mem_nil

/-! ### The search for a bad node -/

theorem Marked.hasError_iff {root : Node} (h : root.Marked) :
    root.label.hasError = true ↔ ∃ l ∈ root.labels, isBad l = true := by
  cases h with
  | node mark _ => exact mark

theorem Marked.hasError_eq_false_iff {root : Node} (h : root.Marked) :
    root.label.hasError = false ↔ root.Faultless := by
  rw [← Bool.not_eq_true, h.hasError_iff]
  constructor
  · intro hnone l hl
    exact Bool.eq_false_iff.mpr fun hbad => hnone ⟨l, hl, hbad⟩
  · rintro hall ⟨l, hl, hbad⟩
    rw [hall l hl] at hbad
    cases hbad

mutual

/-- **The search misses nothing** in a marked tree. -/
theorem firstBad?_eq : ∀ {root : Node}, root.Marked → root.firstBad? = root.labels.find? isBad
  | .node label children, h => by
      obtain ⟨mark, below⟩ := h
      rw [firstBad?, labels]
      by_cases hbad : isBad label = true
      · rw [if_pos hbad, List.find?_cons_of_pos hbad]
      · rw [if_neg hbad, List.find?_cons_of_neg hbad]
        by_cases hmark : label.hasError = true
        · rw [if_pos hmark]
          exact firstBadOf?_eq below
        · -- What is not marked holds nothing bad, so nothing is missed below it.
          rw [if_neg hmark]
          refine (List.find?_eq_none.mpr fun l hl hl' => hmark ?_).symm
          exact mark.mpr ⟨l, List.mem_cons_of_mem _ hl, hl'⟩

theorem firstBadOf?_eq : ∀ {nodes : List Node}, (∀ c ∈ nodes, c.Marked) →
    firstBadOf? nodes = (labelsAll nodes).find? isBad
  | [], _ => rfl
  | child :: rest, h => by
      rw [firstBadOf?, labelsAll, List.find?_append,
        firstBad?_eq (h child (List.mem_cons_self ..)),
        firstBadOf?_eq fun c hc => h c (List.mem_cons_of_mem _ hc)]
      exact Option.orElse_eq_or

end

theorem Marked.firstBad?_eq_none_iff {root : Node} (h : root.Marked) :
    root.firstBad? = none ↔ root.Faultless := by
  rw [firstBad?_eq h, List.find?_eq_none]
  exact forall₂_congr fun l _ => Bool.not_eq_true _ ▸ Iff.rfl

theorem firstBad_iff {root : Node} {bad : Label} :
    root.FirstBad bad ↔ root.labels.find? isBad = some bad := by
  rw [List.find?_eq_some_iff_append]
  constructor
  · rintro ⟨before, after, hlabels, hbad, hbefore⟩
    exact ⟨hbad, before, after, hlabels, fun l hl => by rw [hbefore l hl]; rfl⟩
  · rintro ⟨hbad, before, after, hlabels, hbefore⟩
    exact ⟨before, after, hlabels, hbad, fun l hl => by simpa using hbefore l hl⟩

theorem Marked.firstBad_of_firstBad? {root : Node} (h : root.Marked) {bad : Label}
    (hbad : root.firstBad? = some bad) : root.FirstBad bad :=
  firstBad_iff.mpr (firstBad?_eq h ▸ hbad)

/-! ### The order of labels -/

mutual

/-- All ranges of a tree are in the range of its root. -/
theorem Ordered.within : ∀ {root : Node}, root.Ordered → ∀ l ∈ root.labels,
    root.label.span.start ≤ l.span.start ∧ l.span.start ≤ l.span.stop ∧
      l.span.stop ≤ root.label.span.stop
  | .node label children, h, l, hl => by
      obtain ⟨span, within, _, below⟩ := h
      rcases List.mem_cons.mp hl with rfl | hl
      · exact ⟨Nat.le_refl _, span, Nat.le_refl _⟩
      · obtain ⟨c, hc, hstart, hspan, hstop⟩ := Ordered.withinAll below l hl
        obtain ⟨hfirst, hlast⟩ := within c hc
        exact ⟨Nat.le_trans hfirst hstart, hspan, Nat.le_trans hstop hlast⟩

theorem Ordered.withinAll : ∀ {nodes : List Node}, (∀ c ∈ nodes, c.Ordered) →
    ∀ l ∈ labelsAll nodes, ∃ c ∈ nodes, c.label.span.start ≤ l.span.start ∧
      l.span.start ≤ l.span.stop ∧ l.span.stop ≤ c.label.span.stop
  | [], _, _, hl => absurd hl List.not_mem_nil
  | child :: rest, h, l, hl => by
      rcases List.mem_append.mp hl with hl | hl
      · exact ⟨child, List.mem_cons_self .., Ordered.within (h child (List.mem_cons_self ..)) l hl⟩
      · obtain ⟨c, hc, hwithin⟩ :=
          Ordered.withinAll (fun c hc => h c (List.mem_cons_of_mem _ hc)) l hl
        exact ⟨c, List.mem_cons_of_mem _ hc, hwithin⟩

end

mutual

/-- **Labels are in the order of their starts.** -/
theorem Ordered.pairwise : ∀ {root : Node}, root.Ordered →
    root.labels.Pairwise (fun l m => l.span.start ≤ m.span.start)
  | .node label children, h => by
      have hwithin := h.within
      obtain ⟨_, _, order, below⟩ := h
      refine List.pairwise_cons.mpr ⟨fun l hl => ?_, Ordered.pairwiseAll order below⟩
      exact (hwithin l (List.mem_cons_of_mem _ hl)).1

theorem Ordered.pairwiseAll : ∀ {nodes : List Node},
    nodes.Pairwise (fun c d => c.label.span.stop ≤ d.label.span.start) →
    (∀ c ∈ nodes, c.Ordered) →
      (labelsAll nodes).Pairwise (fun l m => l.span.start ≤ m.span.start)
  | [], _, _ => .nil
  | child :: rest, order, below => by
      obtain ⟨hchild, order⟩ := List.pairwise_cons.mp order
      have hordered : child.Ordered := below child (List.mem_cons_self ..)
      have hrest : ∀ c ∈ rest, c.Ordered := fun c hc => below c (List.mem_cons_of_mem _ hc)
      refine List.pairwise_append.mpr
        ⟨hordered.pairwise, Ordered.pairwiseAll order hrest, fun l hl m hm => ?_⟩
      -- The child ends before the next one starts.
      obtain ⟨_, hspan, hstop⟩ := hordered.within l hl
      obtain ⟨c, hc, hstart, _⟩ := Ordered.withinAll hrest m hm
      calc l.span.start ≤ l.span.stop := hspan
        _ ≤ child.label.span.stop := hstop
        _ ≤ c.label.span.start := hchild c hc
        _ ≤ m.span.start := hstart

end

/-- The first bad node starts first. -/
theorem FirstBad.start_le {root : Node} {bad : Label} (h : root.FirstBad bad)
    (hordered : root.Ordered) {l : Label} (hl : l ∈ root.labels) (hbad : isBad l = true) :
    bad.span.start ≤ l.span.start := by
  obtain ⟨before, after, hlabels, _, hbefore⟩ := h
  have hpairwise := hordered.pairwise
  rw [hlabels] at hl hpairwise
  rcases List.mem_append.mp hl with hl | hl
  · rw [hbefore l hl] at hbad
    cases hbad
  · rcases List.mem_cons.mp hl with rfl | hl
    · exact Nat.le_refl _
    · exact (List.pairwise_cons.mp (List.pairwise_append.mp hpairwise).2.1).1 l hl

theorem FirstBad.mem {root : Node} {bad : Label} (h : root.FirstBad bad) : bad ∈ root.labels := by
  obtain ⟨before, after, hlabels, _⟩ := h
  rw [hlabels]
  exact List.mem_append_right _ (List.mem_cons_self ..)

/-- **What a parser promises of the tree of a text.** -/
structure ParsedFrom (root : Node) (source : Source) : Prop where
  marked : root.Marked
  ordered : root.Ordered
  inside : root.label.span.stop ≤ source.length
  point : ∀ l ∈ root.labels, l.start = source.pointAt l.span.start

theorem ParsedFrom.start_le {root : Node} {source : Source} (h : root.ParsedFrom source)
    {l : Label} (hl : l ∈ root.labels) : l.span.start ≤ source.length := by
  obtain ⟨_, hspan, hstop⟩ := h.ordered.within l hl
  exact Nat.le_trans hspan (Nat.le_trans hstop h.inside)

end Node

/-! ### Where a failure is -/

/-- A failure is at the start of its node, by line breaks and by code units. -/
theorem errorAt_eq {root : Node} {source : Source} (h : root.ParsedFrom source) {bad : Label}
    (hbad : bad ∈ root.labels) :
    errorAt source bad = .badProgram ((source.take bad.span.start).count Source.newline + 1)
      (Utf16.units (Utf8.decodeLossy (source.lineBefore bad.span.start)) + 1)
      (Fault.ofLabel source bad).message := by
  rw [errorAt, h.point bad hbad, Source.positionOf_pointAt (h.start_le hbad)]

/-- A failure between two characters is told by the characters before it. -/
theorem errorAt_encode {root : Node} {source : Source} (h : root.ParsedFrom source) {bad : Label}
    (hbad : bad ∈ root.labels) {before after : List Char}
    (hsource : source = Utf8.encode (before ++ after))
    (hstart : bad.span.start = (Utf8.encode before).length) :
    errorAt source bad = .badProgram (before.count '\n' + 1)
      (Utf16.units (Source.lastLine before) + 1) (Fault.ofLabel source bad).message := by
  rw [errorAt, h.point bad hbad, hstart]
  subst hsource
  rw [Source.positionOf_encode]

namespace Program

open Respelling (starts respell?)

section Outcome

variable {grammar : Grammar} {text respelled : String} {sourceType : SourceType}

/-! ### Which tree is taken -/

/-- The second reading, when the respelled text is known. -/
theorem reread?_eq {first : Node} (h : respell? (Source.ofText text)
      (starts first (Source.ofText text)) = some (Source.ofText respelled)) :
    reread? grammar (Source.ofText text) first =
      if starts first (Source.ofText text) = [] ∨ (grammar respelled).label.hasError = true then
        none
      else
        some (grammar respelled) := by
  have htext : Utf8.decode? (Source.ofText respelled) = some respelled.toList :=
    Utf8.decode?_encode _
  unfold reread?
  simp only [h, htext, String.ofList_toList, Option.bind_eq_bind, Option.bind_some]
  cases starts first (Source.ofText text) with
  | nil => rfl
  | cons start rest =>
    have hcons : start :: rest ≠ [] := List.cons_ne_nil _ _
    by_cases hmark : (grammar respelled).label.hasError = true
    · rw [if_pos (Or.inr hmark), if_pos hmark]
      rfl
    · rw [if_neg (not_or.mpr ⟨hcons, hmark⟩), if_neg hmark]
      rfl

theorem treeOf_def (grammar : Grammar) (text : String) :
    treeOf grammar text =
      if (grammar text).label.hasError = true then
        (reread? grammar (Source.ofText text) (grammar text)).getD (grammar text)
      else grammar text := rfl

/-- Its own tree is taken when it holds nothing bad, or when respelling does not help. -/
theorem treeOf_eq_first (hfirst : (grammar text).Marked) (hsecond : (grammar respelled).Marked)
    (hrespelled : respell? (Source.ofText text)
      (starts (grammar text) (Source.ofText text)) = some (Source.ofText respelled))
    (h : (grammar text).Faultless ∨ ¬ (starts (grammar text) (Source.ofText text) ≠ [] ∧
      (grammar respelled).Faultless)) :
    treeOf grammar text = grammar text := by
  rw [treeOf_def]
  rcases h with h | h
  · rw [hfirst.hasError_eq_false_iff.mpr h]
    rfl
  · have hnone : reread? grammar (Source.ofText text) (grammar text) = none := by
      rw [reread?_eq hrespelled, if_pos]
      by_contra hnot
      obtain ⟨hfound, hmark⟩ := not_or.mp hnot
      exact h ⟨hfound, hsecond.hasError_eq_false_iff.mp (Bool.eq_false_iff.mpr hmark)⟩
    rw [hnone]
    exact ite_self _

/-- The tree of the respelled text is taken when that helps. -/
theorem treeOf_eq_second (hfirst : (grammar text).Marked) (hsecond : (grammar respelled).Marked)
    (hrespelled : respell? (Source.ofText text)
      (starts (grammar text) (Source.ofText text)) = some (Source.ofText respelled))
    (hbad : ¬ (grammar text).Faultless)
    (hfound : starts (grammar text) (Source.ofText text) ≠ [])
    (hgood : (grammar respelled).Faultless) : treeOf grammar text = grammar respelled := by
  have hmark : (grammar text).label.hasError = true := by
    by_contra hmark
    exact hbad (hfirst.hasError_eq_false_iff.mp (Bool.eq_false_iff.mpr hmark))
  have hunmarked : ¬ (grammar respelled).label.hasError = true := by
    rw [hsecond.hasError_eq_false_iff.mpr hgood]
    exact Bool.false_ne_true
  rw [treeOf_def, if_pos hmark, reread?_eq hrespelled, if_neg (not_or.mpr ⟨hfound, hunmarked⟩)]
  rfl

/-- An accepted text has a tree without a bad node. -/
theorem treeOf_of_accepted (hfirst : (grammar text).Marked) (hsecond : (grammar respelled).Marked)
    (hrespelled : respell? (Source.ofText text)
      (starts (grammar text) (Source.ofText text)) = some (Source.ofText respelled))
    (h : (grammar text).Faultless ∨
      starts (grammar text) (Source.ofText text) ≠ [] ∧ (grammar respelled).Faultless) :
    (treeOf grammar text).Marked ∧ (treeOf grammar text).Faultless ∧
      treeOf grammar text =
        if (grammar text).label.hasError then grammar respelled else grammar text := by
  by_cases hown : (grammar text).Faultless
  · rw [treeOf_eq_first hfirst hsecond hrespelled (Or.inl hown),
      hfirst.hasError_eq_false_iff.mpr hown]
    exact ⟨hfirst, hown, rfl⟩
  · obtain ⟨hfound, hhelps⟩ := h.resolve_left hown
    have hmark : (grammar text).label.hasError = true := by
      by_contra hmark
      exact hown (hfirst.hasError_eq_false_iff.mp (Bool.eq_false_iff.mpr hmark))
    rw [treeOf_eq_second hfirst hsecond hrespelled hown hfound hhelps, hmark]
    exact ⟨hsecond, hhelps, rfl⟩

theorem ofText_eq_ok (sourceType : SourceType) (hmarked : (treeOf grammar text).Marked)
    (h : (treeOf grammar text).Faultless) :
    ofText grammar sourceType text =
      .ok ⟨Source.ofText text, treeOf grammar text, sourceType⟩ := by
  rw [ofText, hmarked.firstBad?_eq_none_iff.mpr h]

theorem ofText_eq_error (sourceType : SourceType) (hmarked : (treeOf grammar text).Marked)
    (h : ¬ (treeOf grammar text).Faultless) :
    ∃ bad, (treeOf grammar text).FirstBad bad ∧
      ofText grammar sourceType text = .error (errorAt (Source.ofText text) bad) := by
  rw [ofText]
  cases hbad : (treeOf grammar text).firstBad? with
  | none => exact absurd (hmarked.firstBad?_eq_none_iff.mp hbad) h
  | some bad => exact ⟨bad, hmarked.firstBad_of_firstBad? hbad, rfl⟩

/-- **What comes of a text.**  It can be respelled, and it is accepted exactly when its
own tree holds nothing bad, or when there is a word to respell and the tree of the
respelled text holds nothing bad.  The program then has one of these trees, without a
bad node.  Otherwise the text fails at the first bad node of its own tree, which starts
before all others: the line counts the line breaks before that start, and the column
the UTF-16 code units after the last of them. -/
theorem ofText_outcome (hfirst : (grammar text).ParsedFrom (Source.ofText text))
    (hsecond : ∀ respelled, respell? (Source.ofText text)
      (starts (grammar text) (Source.ofText text)) = some (Source.ofText respelled) →
        (grammar respelled).Marked) (sourceType : SourceType) :
    let source := Source.ofText text
    let found := starts (grammar text) source
    ∃ respelled : String, respell? source found = some (Source.ofText respelled) ∧
      ((∃ program, ofText grammar sourceType text = .ok program) ↔
        (grammar text).Faultless ∨ found ≠ [] ∧ (grammar respelled).Faultless) ∧
      (∀ program, ofText grammar sourceType text = .ok program →
        program.source = source ∧ program.sourceType = sourceType ∧ program.root.Faultless ∧
          program.root = if (grammar text).label.hasError then grammar respelled
            else grammar text) ∧
      ∀ e, ofText grammar sourceType text = .error e →
        ∃ bad, (grammar text).FirstBad bad ∧
          (∀ l ∈ (grammar text).labels, Node.isBad l = true → bad.span.start ≤ l.span.start) ∧
          e = .badProgram ((source.take bad.span.start).count Source.newline + 1)
            (Utf16.units (Utf8.decodeLossy (source.lineBefore bad.span.start)) + 1)
            (Fault.ofLabel source bad).message ∧
          ∀ before after, text.toList = before ++ after →
            bad.span.start = (Utf8.encode before).length →
              e = .badProgram (before.count '\n' + 1) (Utf16.units (Source.lastLine before) + 1)
                (Fault.ofLabel source bad).message := by
  intro source found
  obtain ⟨respelled, hrespelled, _⟩ := Respelling.exists_respelled text (grammar text)
  have hmarked : (grammar respelled).Marked := hsecond respelled hrespelled
  refine ⟨respelled, hrespelled, ?_⟩
  by_cases hgood : (grammar text).Faultless ∨ found ≠ [] ∧ (grammar respelled).Faultless
  · -- The tree that is taken holds nothing bad.
    obtain ⟨hroot, hfaultless, hchoice⟩ :=
      treeOf_of_accepted hfirst.marked hmarked hrespelled hgood
    have hok := ofText_eq_ok sourceType hroot hfaultless
    refine ⟨iff_of_true ⟨_, hok⟩ hgood, fun program hprogram => ?_, fun e he => ?_⟩
    · rw [hok] at hprogram
      cases hprogram
      exact ⟨rfl, rfl, hfaultless, hchoice⟩
    · rw [hok] at he
      cases he
  · -- The text's own tree is taken, and its first bad node is what fails.
    obtain ⟨hown, hnot⟩ := not_or.mp hgood
    have htree := treeOf_eq_first hfirst.marked hmarked hrespelled (Or.inr hnot)
    obtain ⟨bad, hbad, herror⟩ :=
      ofText_eq_error sourceType (htree ▸ hfirst.marked) (htree ▸ hown)
    rw [htree] at hbad
    refine ⟨iff_of_false ?_ hgood, fun program hprogram => ?_, fun e he => ?_⟩
    · rintro ⟨program, hprogram⟩
      rw [herror] at hprogram
      cases hprogram
    · rw [herror] at hprogram
      cases hprogram
    · rw [herror] at he
      cases he
      refine ⟨bad, hbad, fun l hl hl' => hbad.start_le hfirst.ordered hl hl',
        errorAt_eq hfirst hbad.mem, fun before after hsplit hstart => ?_⟩
      exact errorAt_encode hfirst hbad.mem (congrArg Utf8.encode hsplit) hstart

end Outcome

/-! ### A text that fails twice -/

namespace RefusedTwice

/-- An arrow function without a body, which respelling cannot help. -/
def text : String := "\n/*😀*/ undefined => ;"

/-- The text that is read instead. -/
def respelled : String := "\n/*😀*/ _ndefined => ;"

/-- A node of its trees, on the second line. -/
def label (id : Nat) (kind : Kind) (start stop : Nat) (missing hasError : Bool) : Label :=
  { id, kind, span := ⟨start, stop⟩, start := ⟨1, start - 1⟩, named := true, missing, hasError,
    fields := [] }

/-- The tree of the text itself. -/
def first : Node :=
  .node (label 0 (.other "program") 1 24 false true)
    [.node (label 1 .comment 1 9 false false) [], .node (label 2 .error 10 22 false true) [],
      .node (label 3 (.other "empty_statement") 23 24 false false) []]

/-- The tree of the respelled text. -/
def second : Node :=
  .node (label 0 (.other "program") 1 24 false true)
    [.node (label 1 .comment 1 9 false false) [],
      .node (label 2 .arrowFunction 10 22 false true)
        [.node (label 3 .identifier 10 19 false false) [],
          .node (label 4 .identifier 22 22 true true) []]]

/-- A parser that knows these two texts. -/
def grammar : Grammar := fun source => if source = text then first else second

theorem first_parsedFrom : first.ParsedFrom (Source.ofText text) where
  marked := by
    refine .node (by decide) ?_
    simp only [List.forall_mem_cons, List.not_mem_nil, IsEmpty.forall_iff, implies_true, and_true]
    exact ⟨.of_nil rfl, .of_nil rfl, .of_nil rfl⟩
  ordered := by
    refine .node (by decide) ?_ ?_ ?_
    · simp only [List.forall_mem_cons, List.not_mem_nil, IsEmpty.forall_iff, implies_true]
      decide
    · simp only [List.pairwise_cons, List.forall_mem_cons, List.not_mem_nil, IsEmpty.forall_iff,
        implies_true, List.Pairwise.nil]
      decide
    · simp only [List.forall_mem_cons, List.not_mem_nil, IsEmpty.forall_iff, implies_true, and_true]
      exact ⟨.of_nil (by decide), .of_nil (by decide), .of_nil (by decide)⟩
  inside := by decide +kernel
  point := by decide +kernel

theorem second_marked : second.Marked := by
  refine .node (by decide) ?_
  simp only [List.forall_mem_cons, List.not_mem_nil, IsEmpty.forall_iff, implies_true, and_true]
  refine ⟨.of_nil rfl, .node (by decide) ?_⟩
  simp only [List.forall_mem_cons, List.not_mem_nil, IsEmpty.forall_iff, implies_true, and_true]
  exact ⟨.of_nil rfl, .of_nil rfl⟩

/-- What the respelled text can be. -/
theorem respelled_eq {other : String}
    (h : respell? (Source.ofText text) (starts (grammar text) (Source.ofText text)) =
      some (Source.ofText other)) : other = respelled := by
  have hbytes : respell? (Source.ofText text) (starts first (Source.ofText text)) =
      some (Source.ofText respelled) := by
    decide +kernel
  have htext : Source.ofText respelled = Source.ofText other :=
    Option.some.inj (hbytes.symm.trans h)
  have hread := congrArg Utf8.decode? htext
  rw [Source.ofText, Source.ofText, Utf8.decode?_encode, Utf8.decode?_encode] at hread
  exact (String.toList_inj.mp (Option.some.inj hread)).symm

theorem grammar_text : grammar text = first := if_pos rfl

theorem grammar_respelled : grammar respelled = second := if_neg (by decide)

end RefusedTwice

/-- A text whose two trees hold a bad node is refused, at the error in its own tree. -/
theorem ofText_outcome_refusedTwice :
    (RefusedTwice.grammar RefusedTwice.text).ParsedFrom (Source.ofText RefusedTwice.text) ∧
      (∀ respelled, respell? (Source.ofText RefusedTwice.text)
        (starts (RefusedTwice.grammar RefusedTwice.text) (Source.ofText RefusedTwice.text)) =
          some (Source.ofText respelled) → (RefusedTwice.grammar respelled).Marked) ∧
      ofText RefusedTwice.grammar .script RefusedTwice.text =
        .error (.badProgram 2 8 "Unexpected token u") := by
  have hfirst : (RefusedTwice.grammar RefusedTwice.text).ParsedFrom
      (Source.ofText RefusedTwice.text) :=
    RefusedTwice.grammar_text ▸ RefusedTwice.first_parsedFrom
  have hsecond : ∀ respelled, respell? (Source.ofText RefusedTwice.text)
      (starts (RefusedTwice.grammar RefusedTwice.text) (Source.ofText RefusedTwice.text)) =
        some (Source.ofText respelled) → (RefusedTwice.grammar respelled).Marked := by
    intro respelled hrespelled
    rw [RefusedTwice.respelled_eq hrespelled, RefusedTwice.grammar_respelled]
    exact RefusedTwice.second_marked
  refine ⟨hfirst, hsecond, ?_⟩
  obtain ⟨respelled, hrespelled, haccepted, _, hrefused⟩ := ofText_outcome hfirst hsecond .script
  rw [RefusedTwice.respelled_eq hrespelled, RefusedTwice.grammar_text,
    RefusedTwice.grammar_respelled] at haccepted
  cases hresult : ofText RefusedTwice.grammar .script RefusedTwice.text with
  | ok program =>
    rcases haccepted.mp ⟨program, hresult⟩ with hgood | ⟨_, hgood⟩
    · exact absurd hgood (by decide)
    · exact absurd hgood (by decide)
  | error e =>
    obtain ⟨bad, hbad, _, he, _⟩ := hrefused e hresult
    have hfind : RefusedTwice.first.labels.find? Node.isBad =
        some (RefusedTwice.label 2 .error 10 22 false true) := by decide
    rw [RefusedTwice.grammar_text, Node.firstBad_iff, hfind] at hbad
    rw [he, ← Option.some.inj hbad]
    refine congrArg Except.error ?_
    decide +kernel

end Program

end ScopeLint.Syntax
