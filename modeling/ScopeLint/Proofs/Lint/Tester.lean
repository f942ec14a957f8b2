import ScopeLint.Rule.Expectation
import ScopeLint.Proofs.Lint.Once
import ScopeLint.Proofs.Lint.SourceTypes

/-! # The tester and the linter agree

The tester sorts reports by their offsets, and the linter sorts diagnostics by line,
column and whether they are failures.  Of two reports of the rule the one at the
smaller offset has the smaller line, or the smaller column on the same line, and
reports at one offset are at one place; so both orders compare reports alike
(`precedes_ofReport`), and as both sorts keep the order of equals they give the same
list.
-/

namespace ScopeLint

open Syntax (Program Grammar SourceType)

/-- **What the tester finds on a snippet**: it refuses what is no program, and sorts the
reports on a program. -/
theorem Rule.reportsOn_eq (rule : Rule) (grammar : Grammar) (sourceType : SourceType)
    (code : String) :
    rule.reportsOn grammar sourceType code =
      ((Program.ofText grammar sourceType code).mapError (.notParsed code)).map fun program =>
        inSourceOrder (rule.check (analyze program)) := by
  unfold reportsOn
  cases Program.ofText grammar sourceType code with
  | error e => rfl
  | ok program =>
    simp only [Except.mapError, bind, Except.bind, analyze_validate, pure, Except.pure]
    rfl

namespace NoUndefined

variable {grammar : Grammar} {text : String} {sourceType : SourceType}

/-- Diagnostics of reports are ordered as the offsets of the reports. -/
theorem precedes_ofReport (hgrammar : grammar.Pointed) {r r' : Report}
    (hr : r ∈ rule.check
      (analyze ⟨Source.ofText text, Program.treeOf grammar text, sourceType⟩))
    (hr' : r' ∈ rule.check
      (analyze ⟨Source.ofText text, Program.treeOf grammar text, sourceType⟩))
    (name : String) (severity : Severity) :
    decide (r.node.span.start ≤ r'.node.span.start) =
      (Diagnostic.ofReport name severity r).precedes (.ofReport name severity r') := by
  have hmem := List.mem_map_of_mem (f := Report.node) hr
  have hmem' := List.mem_map_of_mem (f := Report.node) hr'
  rw [Bool.eq_iff_iff, decide_eq_true_iff, Diagnostic.precedes_iff]
  simp only [Diagnostic.ofReport]
  -- At different offsets the earlier report is at the earlier place; at one offset places are one.
  rcases Nat.lt_trichotomy r.node.span.start r'.node.span.start with hlt | heq | hgt
  · have hbefore := position_lt hgrammar rfl rfl hmem hmem' hlt
    omega
  · have hsame : r.node.start = r'.node.start := by
      rw [start_of_report hgrammar rfl rfl hmem, start_of_report hgrammar rfl rfl hmem', heq]
    simp [heq, hsame]
  · have hafter := position_lt hgrammar rfl rfl hmem' hmem hgt
    omega

/-- The sorted diagnostics of the reports are the diagnostics of the sorted reports. -/
theorem sort_ofReport (hgrammar : grammar.Pointed) (name : String) (severity : Severity) :
    let reports := rule.check
      (analyze ⟨Source.ofText text, Program.treeOf grammar text, sourceType⟩)
    Diagnostic.sort (reports.map (.ofReport name severity)) =
      (Rule.inSourceOrder reports).map (.ofReport name severity) := by
  intro reports
  refine (List.map_mergeSort fun r hr r' hr' => ?_).symm
  exact precedes_ofReport hgrammar hr hr' name severity

end NoUndefined

/-- What the linter with the built-in rules tells of a program, when the rule is
enabled. -/
theorem Linter.verifyAs_of_ofText {grammar : Grammar} (hgrammar : grammar.Pointed)
    {settings : Settings}
    (henabled : (settings.severity NoUndefined.rule.name).isEnabled = true)
    {text : String} {sourceType : SourceType} {program : Program}
    (hprogram : Program.ofText grammar sourceType text = .ok program) :
    (⟨settings, Registry.builtin⟩ : Linter).verifyAs grammar text sourceType =
      (Rule.inSourceOrder (NoUndefined.rule.check (analyze program))).map
        (.ofReport NoUndefined.rule.name (settings.severity NoUndefined.rule.name)) := by
  have hrun : runRule settings (analyze program) NoUndefined.rule =
      (NoUndefined.rule.check (analyze program)).map
        (.ofReport NoUndefined.rule.name (settings.severity NoUndefined.rule.name)) :=
    if_pos henabled
  rw [verifyAs, check_builtin, hprogram]
  show Diagnostic.sort (runRule settings (analyze program) NoUndefined.rule) = _
  rw [hrun, Program.eq_of_ofText hprogram]
  exact NoUndefined.sort_ofReport hgrammar _ _

/-- **The tester and the linter agree on every text**, whatever source types they are
given.  On a program the linter tells the reports of the tester, in the same order, and the
tester refuses a text exactly when the linter tells a failure.  The parser's points are
supposed to be those of the offsets. -/
theorem tester_linter_agree {grammar : Grammar} (hgrammar : grammar.Pointed)
    {settings : Settings}
    (henabled : (settings.severity NoUndefined.rule.name).isEnabled = true)
    (text : String) (tested linted : SourceType) :
    (∀ program, Program.ofText grammar tested text = .ok program →
      ∃ reports, NoUndefined.rule.reportsOn grammar tested text = .ok reports ∧
        reports.map
            (.ofReport NoUndefined.rule.name (settings.severity NoUndefined.rule.name)) =
          (⟨settings, Registry.builtin⟩ : Linter).verifyAs grammar text linted) ∧
    ((∃ failure, NoUndefined.rule.reportsOn grammar tested text = .error failure) ↔
      ∃ d ∈ (⟨settings, Registry.builtin⟩ : Linter).verifyAs grammar text linted,
        d.fatal = true) := by
  have hreports := NoUndefined.rule.reportsOn_eq grammar tested text
  rw [Linter.verifyAs_congr settings grammar text linted tested]
  constructor
  · intro program hprogram
    rw [hprogram] at hreports
    exact ⟨_, hreports, (Linter.verifyAs_of_ofText hgrammar henabled hprogram).symm⟩
  · cases hprogram : Program.ofText grammar tested text with
    | error e =>
      have hfailure : (⟨settings, Registry.builtin⟩ : Linter).verifyAs grammar text tested =
          [.ofError e] := by
        rw [Linter.verifyAs, Linter.check_builtin, hprogram]
        rfl
      rw [hprogram] at hreports
      rw [hfailure]
      exact ⟨fun _ => ⟨_, List.mem_singleton_self _, Diagnostic.fatal_ofError e⟩,
        fun _ => ⟨_, hreports⟩⟩
    | ok program =>
      rw [hprogram] at hreports
      rw [Linter.verifyAs_of_ofText hgrammar henabled hprogram, hreports]
      constructor
      · rintro ⟨failure, hfailure⟩
        cases hfailure
      · rintro ⟨d, hd, hfatal⟩
        obtain ⟨report, _, rfl⟩ := List.mem_map.mp hd
        cases hfatal

/-- On `undefined = undefined`, tested as a module and linted as a script, both find the
two uses, in order. -/
theorem tester_linter_agree_assignment :
    AssignedToItself.grammar.Pointed ∧
      (Settings.default.severity NoUndefined.rule.name).isEnabled = true ∧
      Program.ofText AssignedToItself.grammar .module AssignedToItself.text =
        .ok ⟨Source.ofText AssignedToItself.text, AssignedToItself.root, .module⟩ ∧
      ∃ reports, NoUndefined.rule.reportsOn AssignedToItself.grammar .module
          AssignedToItself.text = .ok reports ∧
        reports.map (.ofReport NoUndefined.rule.name
            (Settings.default.severity NoUndefined.rule.name)) =
          (⟨Settings.default, Registry.builtin⟩ : Linter).verifyAs AssignedToItself.grammar
            AssignedToItself.text .script := by
  have henabled : (Settings.default.severity NoUndefined.rule.name).isEnabled = true := by
    decide +kernel
  have hprogram : Program.ofText AssignedToItself.grammar .module AssignedToItself.text =
      .ok ⟨Source.ofText AssignedToItself.text, AssignedToItself.root, .module⟩ := by
    rw [Program.ofText, AssignedToItself.treeOf_text]
    rfl
  exact ⟨AssignedToItself.grammar_pointed, henabled, hprogram,
    (tester_linter_agree AssignedToItself.grammar_pointed henabled AssignedToItself.text
      .module .script).1 _ hprogram⟩

end ScopeLint
