import ScopeLint.Proofs.Lint.Linter
import ScopeLint.Proofs.Lint.Reports
import ScopeLint.Proofs.Outline.Once

/-! # No node is reported twice

A report is of a mention, and no node is mentioned twice, so no two reports are of
one node.  When nodes that are told apart start at different offsets, the linter
tells the reports in the order of the offsets: it sorts by line and column, and a
report at a later offset is at a later line, or at a later column on the same line.
-/

namespace ScopeLint

open Syntax (Label Node Identifier Program Grammar SourceType)

namespace NoUndefined

/-- No two reports are of one node. -/
theorem reports_nodup {program : Program} (hroot : program.root.Placed) :
    ((rule.check (analyze program)).map (·.node.id)).Nodup := by
  have hids : (rule.check (analyze program)).map (·.node.id) =
      ((rule.check (analyze program)).map (·.node)).map (·.id) := by
    rw [List.map_map]
    rfl
  rw [hids]
  refine ((reports_perm program).map _).nodup_iff.mpr ?_
  exact (program.mentions_nodup hroot).sublist (List.filter_sublist.map _)

end NoUndefined

/-! ### The order of reports -/

section Order

variable {grammar : Grammar} {text : String} {sourceType : SourceType} {program : Program}

/-- The diagnostics of the rule's reports are told by increasing offsets. -/
theorem offsets_increasing (hgrammar : grammar.Pointed)
    (hsource : program.source = Source.ofText text)
    (htree : program.root = Program.treeOf grammar text) (hroot : program.root.Placed)
    (hapart : ∀ x ∈ program.mentions, ∀ y ∈ program.mentions,
      x.span.start = y.span.start → x.id = y.id) (name : String) (severity : Severity) :
    ((Diagnostic.sort ((NoUndefined.rule.check (analyze program)).map
      (.ofReport name severity))).map (·.offset)).Pairwise (· < ·) := by
  generalize hreports : NoUndefined.rule.check (analyze program) = reports
  have hperm := List.mergeSort_perm (reports.map (Diagnostic.ofReport name severity))
    Diagnostic.precedes
  have hmem : ∀ r ∈ reports,
      r.node ∈ (NoUndefined.rule.check (analyze program)).map (·.node) := fun r hr =>
    hreports ▸ List.mem_map_of_mem hr
  -- Diagnostics of two reports differ in their offsets.
  have hdistinct : (Diagnostic.sort (reports.map (.ofReport name severity))).Pairwise
      fun a b => a.offset ≠ b.offset := by
    refine (hperm.pairwise_iff fun h => Ne.symm h).mpr (List.pairwise_map.mpr ?_)
    have hnodup := NoUndefined.reports_nodup hroot
    rw [hreports] at hnodup
    refine (List.pairwise_map.mp hnodup).imp_of_mem fun {r r'} hr hr' hne hoffset => hne ?_
    exact hapart _ (NoUndefined.mention_of_report (hmem r hr)).1 _
      (NoUndefined.mention_of_report (hmem r' hr')).1 hoffset
  refine List.pairwise_map.mpr ?_
  refine ((Diagnostic.pairwise_sort _).and hdistinct).imp_of_mem
    fun {a b} ha hb ⟨hprecedes, hne⟩ => ?_
  obtain ⟨r, hr, rfl⟩ := List.mem_map.mp (hperm.mem_iff.mp ha)
  obtain ⟨r', hr', rfl⟩ := List.mem_map.mp (hperm.mem_iff.mp hb)
  rcases Nat.lt_or_gt_of_ne hne with hlt | hgt
  · exact hlt
  · have hlater := position_lt hgrammar hsource htree (hmem r' hr') (hmem r hr) hgt
    rw [Diagnostic.precedes_iff] at hprecedes
    simp only [Diagnostic.ofReport] at hprecedes
    omega

end Order

/-- **No two reports are of one node, and the linter tells them by increasing
offsets.**  The second half supposes that the parser's points are those of the
offsets, and that nodes which the analysis tells apart start at different ones. -/
theorem noUndefined_once {root : Node} (hroot : root.Placed) :
    (∀ (source : Source) (sourceType : SourceType),
      ((NoUndefined.rule.check (analyze ⟨source, root, sourceType⟩)).map (·.node.id)).Nodup) ∧
    ∀ (settings : Settings) (grammar : Grammar) (text : String) (sourceType : SourceType),
      grammar.Pointed → Program.treeOf grammar text = root →
      (∀ x ∈ (⟨Source.ofText text, root, sourceType⟩ : Program).mentions,
        ∀ y ∈ (⟨Source.ofText text, root, sourceType⟩ : Program).mentions,
          x.span.start = y.span.start → x.id = y.id) →
      (((⟨settings, Registry.builtin⟩ : Linter).verifyAs grammar text sourceType).map
        (·.offset)).Pairwise (· < ·) := by
  refine ⟨fun source sourceType => NoUndefined.reports_nodup hroot, ?_⟩
  intro settings grammar text sourceType hgrammar htree hapart
  have hsingle : ∀ d : Diagnostic, ([d].map (·.offset)).Pairwise (· < ·) :=
    fun d => List.pairwise_singleton _ _
  unfold Linter.verifyAs
  cases hcheck : (⟨settings, Registry.builtin⟩ : Linter).check grammar text sourceType with
  | error e => exact hsingle _
  | ok diagnostics =>
    rw [Linter.eq_of_check hcheck, htree]
    show ((Diagnostic.sort (Linter.runRule settings _ NoUndefined.rule ++ [])).map
      (·.offset)).Pairwise (· < ·)
    rw [List.append_nil, Linter.runRule]
    split
    · exact offsets_increasing hgrammar rfl htree.symm hroot hapart _ _
    · rw [Diagnostic.sort, List.mergeSort_nil]
      exact List.Pairwise.nil

/-! ### Two uses in one assignment -/

namespace AssignedToItself

/-- A program that assigns the word to itself. -/
def text : String := "undefined = undefined"

/-- Its tree. -/
def root : Node :=
  .node (.onFirstLine 0 (.other "program") 0 21 [])
    [.node (.onFirstLine 1 .assignmentExpression 0 21 [])
      [.node (.onFirstLine 2 .undefined 0 9 [.left]) [],
        .node (.onFirstLine 3 .undefined 12 21 [.right]) []]]

/-- A parser that knows this program alone. -/
def grammar : Grammar := fun source =>
  if source = text then root else .node (.onFirstLine 0 (.other "program") 0 0 []) []

theorem root_placed : root.Placed where
  distinct := by decide
  placed := by
    have hall : ∀ l ∈ root.labels,
        l.fields.length ≤ 1 ∧ l.kind ≠ .decorator ∧ l.kind ≠ .exportClause := by decide
    exact fun l hl => Syntax.Label.placed_of_length (hall l hl).1 (hall l hl).2.1 (hall l hl).2.2

theorem grammar_pointed : grammar.Pointed := by
  intro source l hl
  unfold grammar at hl
  split at hl
  · subst_vars
    revert l
    decide +kernel
  · rw [List.mem_singleton.mp hl]
    rfl

theorem treeOf_text : Program.treeOf grammar text = root := by
  have hparsed : grammar text = root := if_pos rfl
  rw [Program.treeOf, hparsed]
  rfl

theorem mentions_apart : ∀ x ∈ (⟨Source.ofText text, root, .script⟩ : Program).mentions,
    ∀ y ∈ (⟨Source.ofText text, root, .script⟩ : Program).mentions,
      x.span.start = y.span.start → x.id = y.id := by
  decide +kernel

end AssignedToItself

/-- The two uses in `undefined = undefined` are reported once each, in order. -/
theorem noUndefined_once_assignment :
    AssignedToItself.root.Placed ∧
      ((NoUndefined.rule.check (analyze ⟨Source.ofText AssignedToItself.text,
        AssignedToItself.root, .script⟩)).map (·.node.id)).Nodup ∧
      (((⟨Settings.default, Registry.builtin⟩ : Linter).verifyAs AssignedToItself.grammar
        AssignedToItself.text .script).map (·.offset)).Pairwise (· < ·) :=
  ⟨AssignedToItself.root_placed,
    (noUndefined_once AssignedToItself.root_placed).1 _ _,
    (noUndefined_once AssignedToItself.root_placed).2 _ _ _ _ AssignedToItself.grammar_pointed
      AssignedToItself.treeOf_text AssignedToItself.mentions_apart⟩

end ScopeLint
