import Mathlib.Algebra.GroupWithZero.Nat
import Mathlib.Algebra.Order.BigOperators.Group.List
import Mathlib.Algebra.Order.Group.Nat
import ScopeLint.Lint.Files
import ScopeLint.Proofs.Lint.Linter

/-! # Every file is accounted for

The report of a file takes one of two shapes, by whether the file could be linted
(`Linter.canLint`): it holds one failure and nothing else (`FileReport.Failed`), or
sorted findings of the enabled rules and no failure (`FileReport.Linted`).  The totals
of a run are sums over its reports, so they count failed files, errors and warnings
without loss or overlap (`lintFiles_accounted`).
-/

namespace ScopeLint

open Syntax (Program Grammar SourceType)

/-! ### The two shapes of a report -/

namespace FileReport

/-- **The report of a file that could not be linted**: a failure and nothing else. -/
def Failed (report : FileReport) : Prop :=
  ∃ d, report.messages = [d] ∧ d.fatal = true ∧ d.severity = .error ∧ d.rule = none ∧
    d.nodeKind = none

/-- **The report of a file that was linted**: findings of enabled rules, in order. -/
structure Linted (linter : Linter) (report : FileReport) : Prop where
  not_fatal : ∀ d ∈ report.messages, d.fatal = false
  severity : ∀ d ∈ report.messages, d.severity = .warn ∨ d.severity = .error
  ofRule : ∀ d ∈ report.messages, ∃ rule ∈ linter.registry, d.rule = some rule.name ∧
    d.severity = linter.settings.severity rule.name
  sorted : report.messages.Pairwise fun a b =>
    a.line < b.line ∨ a.line = b.line ∧ a.column ≤ b.column

variable {linter : Linter} {report : FileReport}

theorem Failed.severity (h : report.Failed) :
    ∀ d ∈ report.messages, d.severity = .warn ∨ d.severity = .error := by
  obtain ⟨d, hmessages, _, hseverity, _⟩ := h
  rw [hmessages]
  intro e he
  rw [List.mem_singleton.mp he]
  exact Or.inr hseverity

theorem Failed.isError (h : report.Failed) : ∀ d ∈ report.messages, d.isError = true := by
  obtain ⟨d, hmessages, _, hseverity, _⟩ := h
  rw [hmessages]
  intro e he
  rw [List.mem_singleton.mp he, Diagnostic.isError, hseverity]
  rfl

theorem Failed.fatalCount_eq (h : report.Failed) : report.fatalCount = 1 := by
  obtain ⟨d, hmessages, hfatal, _⟩ := h
  rw [fatalCount, hmessages, List.countP_singleton, if_pos hfatal]

theorem Linted.fatalCount_eq (h : report.Linted linter) : report.fatalCount = 0 :=
  List.countP_eq_zero.mpr fun d hd => by simp [h.not_fatal d hd]

/-! ### Counts of one report -/

/-- Where no message is off, each is an error or a warning. -/
theorem errorCount_add_warningCount
    (h : ∀ d ∈ report.messages, d.severity = .warn ∨ d.severity = .error) :
    report.errorCount + report.warningCount = report.messages.length := by
  have hwarning : report.warningCount = report.messages.countP fun d => ¬ d.isError = true := by
    refine List.countP_congr fun d hd => ?_
    rcases h d hd with hseverity | hseverity
    · simp [Diagnostic.isWarning, Diagnostic.isError, hseverity]
    · simp [Diagnostic.isWarning, Diagnostic.isError, hseverity]
  rw [hwarning, errorCount]
  exact (List.length_eq_countP_add_countP _).symm

/-- Where every failure is an error, no more failures are counted than errors. -/
theorem fatalCount_le_errorCount
    (h : ∀ d ∈ report.messages, d.fatal = true → d.isError = true) :
    report.fatalCount ≤ report.errorCount :=
  List.countP_mono_left h

theorem errorCount_errorsOnly (report : FileReport) :
    report.errorsOnly.errorCount = report.errorCount := by
  rw [errorCount, errorsOnly, List.countP_filter, errorCount]
  exact List.countP_congr fun d _ => by simp

/-- Where every failure is an error, leaving out what is no error leaves out no failure. -/
theorem fatalCount_errorsOnly
    (h : ∀ d ∈ report.messages, d.fatal = true → d.isError = true) :
    report.errorsOnly.fatalCount = report.fatalCount := by
  rw [fatalCount, errorsOnly, List.countP_filter, fatalCount]
  refine List.countP_congr fun d hd => ?_
  rw [Bool.and_eq_true]
  exact ⟨fun hboth => hboth.1, fun hfatal => ⟨hfatal, h d hd hfatal⟩⟩

theorem warningCount_errorsOnly (report : FileReport) : report.errorsOnly.warningCount = 0 := by
  rw [warningCount, errorsOnly, List.countP_filter]
  refine List.countP_eq_zero.mpr fun d _ => ?_
  cases hseverity : d.severity <;> simp [Diagnostic.isWarning, Diagnostic.isError, hseverity]

end FileReport

/-! ### Totals -/

namespace Summary

/-- The totals of two runs together. -/
instance : Add Summary where
  add s t := ⟨s.files + t.files, s.errors + t.errors, s.warnings + t.warnings, s.fatal + t.fatal⟩

/-- **Totals are sums** over the reports. -/
theorem ofReports_eq (reports : List FileReport) :
    ofReports reports =
      ⟨reports.length, (reports.map (·.errorCount)).sum, (reports.map (·.warningCount)).sum,
        (reports.map (·.fatalCount)).sum⟩ := by
  induction reports with
  | nil => rfl
  | cons report reports ih =>
    rw [ofReports, List.foldr_cons]
    change add report (ofReports reports) = _
    rw [ih]
    rfl

theorem ofReports_append (first second : List FileReport) :
    ofReports (first ++ second) = ofReports first + ofReports second := by
  rw [ofReports_eq, ofReports_eq, ofReports_eq]
  simp only [List.map_append, List.sum_append, List.length_append]
  rfl

theorem ofReports_perm {first second : List FileReport} (h : first.Perm second) :
    ofReports first = ofReports second := by
  rw [ofReports_eq, ofReports_eq, h.length_eq, (h.map (·.errorCount)).sum_eq,
    (h.map (·.warningCount)).sum_eq, (h.map (·.fatalCount)).sum_eq]

theorem errors_errorsOnly (reports : List FileReport) :
    (ofReports (reports.map (·.errorsOnly))).errors = (ofReports reports).errors := by
  simp only [ofReports_eq, List.map_map]
  exact congrArg List.sum (List.map_congr_left fun report _ => report.errorCount_errorsOnly)

theorem warnings_errorsOnly (reports : List FileReport) :
    (ofReports (reports.map (·.errorsOnly))).warnings = 0 := by
  simp only [ofReports_eq, List.map_map]
  refine List.sum_eq_zero fun n hn => ?_
  obtain ⟨report, _, rfl⟩ := List.mem_map.mp hn
  exact report.warningCount_errorsOnly

variable {reports : List FileReport}

theorem fatal_errorsOnly
    (h : ∀ report ∈ reports, ∀ d ∈ report.messages, d.fatal = true → d.isError = true) :
    (ofReports (reports.map (·.errorsOnly))).fatal = (ofReports reports).fatal := by
  simp only [ofReports_eq, List.map_map]
  refine congrArg List.sum (List.map_congr_left fun report hreport => ?_)
  exact FileReport.fatalCount_errorsOnly (h report hreport)

theorem fatal_le_errors
    (h : ∀ report ∈ reports, ∀ d ∈ report.messages, d.fatal = true → d.isError = true) :
    (ofReports reports).fatal ≤ (ofReports reports).errors := by
  rw [ofReports_eq]
  exact List.sum_le_sum fun report hreport => FileReport.fatalCount_le_errorCount (h report hreport)

theorem problems_eq
    (h : ∀ report ∈ reports, ∀ d ∈ report.messages, d.severity = .warn ∨ d.severity = .error) :
    (ofReports reports).errors + (ofReports reports).warnings =
      (reports.map (·.messages.length)).sum := by
  rw [ofReports_eq, ← List.sum_map_add]
  refine congrArg List.sum (List.map_congr_left fun report hreport => ?_)
  exact FileReport.errorCount_add_warningCount (h report hreport)

end Summary

/-! ### Reports of a linter -/

namespace Linter

variable {linter : Linter} {grammar : Grammar} {files : FileSystem} {path : Path}

/-- Whether the file at a path can be linted: it can be read, its text is a program, and
validation accepts the scopes of the program. -/
def canLint (linter : Linter) (grammar : Grammar) (files : FileSystem) (path : Path) : Bool :=
  match files.readText path with
  | .error _ => false
  | .ok text =>
    match Program.ofText grammar
      (SourceType.ofExtension (Path.extension? path) linter.settings.sourceType) text with
    | .error _ => false
    | .ok program => (analyze program).validate.isOk

/-- **The report of a file that cannot be linted** holds one failure. -/
theorem failed_lintFile (h : linter.canLint grammar files path = false) :
    (linter.lintFile grammar files path).Failed := by
  have hfailure : ∃ e, linter.lintFile grammar files path = ⟨path, [.ofError e]⟩ := by
    unfold canLint at h
    unfold lintFile
    cases htext : files.readText path with
    | error fault => exact ⟨_, rfl⟩
    | ok text =>
      simp only [htext] at h
      simp only [verifyAs_eq]
      cases hprogram : Program.ofText grammar
        (SourceType.ofExtension (Path.extension? path) linter.settings.sourceType) text with
      | error e => exact ⟨e, rfl⟩
      | ok program =>
        simp only [hprogram, analyze_validate] at h
        cases h
  obtain ⟨e, he⟩ := hfailure
  rw [he]
  refine ⟨.ofError e, rfl, Diagnostic.fatal_ofError e, ?_, Diagnostic.rule_ofError e, ?_⟩
  · cases e <;> rfl
  · cases e <;> rfl

/-- Sorted findings of the rules make the report of a linted file. -/
theorem linted_sort (linter : Linter) (tree : ScopeTree) (path : Path) :
    (⟨path, Diagnostic.sort (linter.registry.flatMap (runRule linter.settings tree))⟩ :
      FileReport).Linted linter := by
  have hfound : ∀ d ∈ Diagnostic.sort (linter.registry.flatMap (runRule linter.settings tree)),
      ∃ rule ∈ linter.registry, d ∈ runRule linter.settings tree rule :=
    fun d hd => List.mem_flatMap.mp (Diagnostic.mem_sort.mp hd)
  constructor
  case not_fatal =>
    intro d hd
    obtain ⟨rule, _, hd⟩ := hfound d hd
    exact (of_mem_runRule hd).2.2.2
  case severity =>
    intro d hd
    obtain ⟨rule, _, hd⟩ := hfound d hd
    obtain ⟨_, hseverity, henabled, _⟩ := of_mem_runRule hd
    rw [← hseverity] at henabled
    cases hlevel : d.severity with
    | off =>
      rw [hlevel] at henabled
      cases henabled
    | warn => exact Or.inl rfl
    | error => exact Or.inr rfl
  case ofRule =>
    intro d hd
    obtain ⟨rule, hrule, hd⟩ := hfound d hd
    obtain ⟨hname, hseverity, _⟩ := of_mem_runRule hd
    exact ⟨rule, hrule, hname, hseverity⟩
  case sorted =>
    refine (Diagnostic.pairwise_sort _).imp fun hprecedes => ?_
    rcases Diagnostic.precedes_iff.mp hprecedes with hline | ⟨hline, hcolumn | ⟨hcolumn, _⟩⟩
    · exact Or.inl hline
    · exact Or.inr ⟨hline, Nat.le_of_lt hcolumn⟩
    · exact Or.inr ⟨hline, Nat.le_of_eq hcolumn⟩

/-- **The report of a file that can be linted** holds findings of the enabled rules. -/
theorem linted_lintFile (h : linter.canLint grammar files path = true) :
    (linter.lintFile grammar files path).Linted linter := by
  unfold canLint at h
  unfold lintFile
  cases htext : files.readText path with
  | error fault =>
    rw [htext] at h
    cases h
  | ok text =>
    simp only [htext] at h
    simp only [verifyAs_eq]
    cases hprogram : Program.ofText grammar
      (SourceType.ofExtension (Path.extension? path) linter.settings.sourceType) text with
    | error e =>
      rw [hprogram] at h
      cases h
    | ok program => exact linted_sort linter (analyze program) path

/-- The report of every file has one of the two shapes. -/
theorem failed_or_linted {report : FileReport} {paths : List Path}
    (h : report ∈ linter.lintFiles grammar files paths) :
    report.Failed ∨ report.Linted linter := by
  obtain ⟨path, _, rfl⟩ := List.mem_map.mp h
  cases hcan : linter.canLint grammar files path with
  | false => exact Or.inl (failed_lintFile hcan)
  | true => exact Or.inr (linted_lintFile hcan)

/-- **As many failures are counted as files cannot be linted.** -/
theorem fatal_lintFiles (linter : Linter) (grammar : Grammar) (files : FileSystem)
    (paths : List Path) :
    (Summary.ofReports (linter.lintFiles grammar files paths)).fatal =
      paths.countP fun path => !linter.canLint grammar files path := by
  rw [Summary.ofReports_eq, lintFiles]
  simp only [List.map_map]
  induction paths with
  | nil => rfl
  | cons path paths ih =>
    rw [List.map_cons, List.sum_cons, ih, List.countP_cons, Nat.add_comm]
    congr 1
    cases hcan : linter.canLint grammar files path with
    | false => exact (failed_lintFile hcan).fatalCount_eq
    | true => exact (linted_lintFile hcan).fatalCount_eq

end Linter

/-- **Every file is accounted for.**  Whatever the settings, the rules, the parser and the
files, the report of a file that can be linted holds findings of enabled rules in order,
and that of any other file holds one failure.  So of a run over some files the failures
are the files that cannot be linted, the errors and warnings together are all messages,
and the failures are errors.  Leaving out what is no error changes neither errors nor
failures.  Totals of any reports add up when the reports are put together, and do not
depend on their order. -/
theorem lintFiles_accounted (linter : Linter) (grammar : Grammar) (files : FileSystem)
    (paths : List Path) :
    let reports := linter.lintFiles grammar files paths
    let totals := Summary.ofReports reports
    let shown := Summary.ofReports (reports.map (·.errorsOnly))
    (∀ report ∈ reports, report.Failed ∨ report.Linted linter) ∧
      (∀ path ∈ paths, if linter.canLint grammar files path then
        (linter.lintFile grammar files path).Linted linter
        else (linter.lintFile grammar files path).Failed) ∧
      totals.fatal = (paths.countP fun path => !linter.canLint grammar files path) ∧
      totals.errors + totals.warnings = (reports.map (·.messages.length)).sum ∧
      totals.fatal ≤ totals.errors ∧
      (shown.errors = totals.errors ∧ shown.fatal = totals.fatal) ∧
      (∀ first second,
        Summary.ofReports (first ++ second) = Summary.ofReports first + Summary.ofReports second) ∧
      ∀ first second : List FileReport, first.Perm second →
        Summary.ofReports first = Summary.ofReports second := by
  intro reports totals shown
  have hshape : ∀ report ∈ reports, report.Failed ∨ report.Linted linter :=
    fun report hreport => Linter.failed_or_linted hreport
  have hseverity : ∀ report ∈ reports, ∀ d ∈ report.messages,
      d.severity = .warn ∨ d.severity = .error := by
    intro report hreport
    rcases hshape report hreport with hfailed | hlinted
    · exact hfailed.severity
    · exact hlinted.severity
  have hfatal : ∀ report ∈ reports, ∀ d ∈ report.messages, d.fatal = true → d.isError = true := by
    intro report hreport d hd hfatal
    rcases hshape report hreport with hfailed | hlinted
    · exact hfailed.isError d hd
    · rw [hlinted.not_fatal d hd] at hfatal
      cases hfatal
  refine ⟨hshape, fun path _ => ?_, Linter.fatal_lintFiles .., Summary.problems_eq hseverity,
    Summary.fatal_le_errors hfatal,
    ⟨Summary.errors_errorsOnly reports, Summary.fatal_errorsOnly hfatal⟩,
    Summary.ofReports_append, fun _ _ => Summary.ofReports_perm⟩
  cases hcan : linter.canLint grammar files path with
  | false => exact Linter.failed_lintFile hcan
  | true => exact Linter.linted_lintFile hcan

end ScopeLint
