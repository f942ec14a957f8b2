import ScopeLint.Command.Run
import ScopeLint.Proofs.Lint.Totals

/-! # The verdict of a run

A run over some files fails on any error, and on more warnings than it may have
(`Summary.isFailure_iff`).  What a run leaves out for being asked to show errors only, it
does not count either.  So such a run fails on errors alone, whatever number of warnings
it may have, and ends as the run that shows everything does exactly when the warnings
alone do not fail the latter (`quiet_verdict`).  On a single warning where none is allowed
the two end differently (`quiet_changes_verdict`).
-/

namespace ScopeLint

namespace Summary

theorem isFailure_iff {s : Summary} {maxWarnings : Option Nat} :
    s.isFailure maxWarnings = true ↔
      0 < s.errors ∨ ∃ max, maxWarnings = some max ∧ max < s.warnings := by
  rw [isFailure, Bool.or_eq_true, decide_eq_true_eq]
  cases maxWarnings <;> simp

end Summary

namespace Command

/-- What a run finds in the files that it lints, with nothing left out; none when an error
ends the run before it lints. -/
def foundReports (environment : Environment) (options : CheckOptions) : Option (List FileReport) :=
  let change (settings : Settings) : Settings :=
    { settings with sourceType := options.sourceType.getD settings.sourceType }
  match linterAt environment (options.config.getD Settings.fileName) change with
  | .error _ => none
  | .ok (linter, _) =>
    match filesToLint environment.ignore environment.files linter.settings options.paths with
    | .error _ => none
    | .ok paths => some (linter.lintFiles environment.grammar environment.files paths)

/-- **The status of a run** is decided by the reports that it shows. -/
theorem status_runCheck (environment : Environment) (options : CheckOptions) :
    (runCheck environment options).status =
      match foundReports environment options with
      | none => 1
      | some reports =>
        if (Summary.ofReports (shownReports options.quiet reports)).isFailure options.maxWarnings
        then 1 else 0 := by
  unfold runCheck foundReports
  simp only
  generalize linterAt environment _ _ = settled
  rcases settled with message | ⟨linter, configured⟩
  · rfl
  · simp only
    generalize filesToLint environment.ignore environment.files linter.settings
      options.paths = found
    rcases found with path | paths
    · rfl
    · rfl

/-- The totals of a run that shows errors only. -/
theorem isFailure_shownReports (reports : List FileReport) (maxWarnings : Option Nat) :
    (Summary.ofReports (shownReports true reports)).isFailure maxWarnings = true ↔
      0 < (Summary.ofReports reports).errors := by
  have hshown : shownReports true reports = reports.map (·.errorsOnly) := rfl
  rw [Summary.isFailure_iff, hshown, Summary.errors_errorsOnly, Summary.warnings_errorsOnly]
  refine or_iff_left ?_
  rintro ⟨max, _, hlt⟩
  exact Nat.not_lt_zero max hlt

/-- **When showing errors only leaves the verdict as it is.**  A run that an error ends
before it lints fails with and without the request.  Otherwise the run that shows
everything fails on any error or on more warnings than it may have, and the run that shows
errors only fails on errors alone.  The two verdicts agree exactly when there is an error,
or no more warnings than there may be. -/
theorem quiet_verdict (environment : Environment) (options : CheckOptions) :
    let loud := (runCheck environment { options with quiet := false }).status
    let quiet := (runCheck environment { options with quiet := true }).status
    (foundReports environment options = none → loud = 1 ∧ quiet = 1) ∧
      ∀ reports, foundReports environment options = some reports →
        let found := Summary.ofReports reports
        (loud = if 0 < found.errors ∨
            ∃ max, options.maxWarnings = some max ∧ max < found.warnings then 1 else 0) ∧
          (quiet = if 0 < found.errors then 1 else 0) ∧
          (quiet = loud ↔
            0 < found.errors ∨ ∀ max, options.maxWarnings = some max → found.warnings ≤ max) := by
  intro loud quiet
  have hloud : loud = _ := status_runCheck environment { options with quiet := false }
  have hquiet : quiet = _ := status_runCheck environment { options with quiet := true }
  have hsame : ∀ q, foundReports environment { options with quiet := q } =
      foundReports environment options := fun _ => rfl
  rw [hsame] at hloud hquiet
  constructor
  · intro hnone
    rw [hnone] at hloud hquiet
    exact ⟨hloud, hquiet⟩
  · intro reports hreports found
    rw [hreports] at hloud hquiet
    replace hloud : loud = if 0 < found.errors ∨
        ∃ max, options.maxWarnings = some max ∧ max < found.warnings then 1 else 0 :=
      hloud.trans (if_congr Summary.isFailure_iff rfl rfl)
    replace hquiet : quiet = if 0 < found.errors then 1 else 0 :=
      hquiet.trans (if_congr (isFailure_shownReports reports options.maxWarnings) rfl rfl)
    refine ⟨hloud, hquiet, ?_⟩
    -- Without an error, only the warnings are left to tell the two runs apart.
    have hwarnings : (∀ max, options.maxWarnings = some max → found.warnings ≤ max) ↔
        ¬ ∃ max, options.maxWarnings = some max ∧ max < found.warnings := by
      simp only [not_exists, not_and, Nat.not_lt]
    rw [hloud, hquiet, hwarnings]
    by_cases herrors : 0 < found.errors
    · rw [if_pos herrors, if_pos (Or.inl herrors)]
      exact iff_of_true rfl (Or.inl herrors)
    · rw [if_neg herrors]
      by_cases hover : ∃ max, options.maxWarnings = some max ∧ max < found.warnings
      · rw [if_pos (Or.inr hover)]
        exact iff_of_false (by decide) (not_or_intro herrors (not_not_intro hover))
      · rw [if_neg (not_or_intro herrors hover)]
        exact iff_of_true rfl (Or.inr hover)

/-! ### One warning where none is allowed -/

namespace OneWarning

/-- A node whose range is the word. -/
def label (id : Nat) (kind : Syntax.Kind) : Syntax.Label where
  id
  kind
  span := ⟨0, 9⟩
  start := ⟨0, 0⟩
  named := true
  missing := false
  hasError := false
  fields := []

/-- The tree of a program that is the word alone. -/
def root : Syntax.Node :=
  .node (label 0 (.other "program"))
    [.node (label 1 (.other "expression_statement")) [.node (label 2 .undefined) []]]

/-- A directory with this program, and with settings that make its use of the word a
warning. -/
def environment : Environment where
  files := FileTree.directory "."
    [.file "a.js" (Utf8.encode "undefined".toList),
      .file "undeflint.toml" (Utf8.encode "[rules]\nno-undefined = \"warn\"\n".toList)]
  grammar := fun _ => root
  bare := true

end OneWarning

/-- **Showing errors only can change the verdict**: one warning fails a run that may have
none, but not if the run is asked to show errors only. -/
theorem quiet_changes_verdict :
    (runArguments OneWarning.environment ["check", "--max-warnings", "0"]).status = 1 ∧
      (runArguments OneWarning.environment ["check", "--quiet", "--max-warnings", "0"]).status =
        0 := by
  decide +kernel

end Command

end ScopeLint
