import ScopeLint.Lint.Linter
import ScopeLint.Rule.Builtin
import ScopeLint.Proofs.Analysis.WellFormed

/-! # What a linter tells

Validation accepts the scope tree of every program, so a linter does one of two
things (`Linter.check_eq`): it refuses a text that is no program, or it tells the
reports of the enabled rules on the program, in order.
-/

namespace ScopeLint

open Syntax (Program Grammar SourceType)

/-! ### Programs -/

/-- An accepted program is the text with its tree. -/
theorem Syntax.Program.eq_of_ofText {grammar : Grammar} {sourceType : SourceType} {text : String}
    {program : Program} (h : Program.ofText grammar sourceType text = .ok program) :
    program = ⟨Source.ofText text, treeOf grammar text, sourceType⟩ := by
  unfold ofText at h
  simp only at h
  split at h
  · cases h
  · exact (Except.ok.inj h).symm

/-- The only error of a text is that it is no program. -/
theorem Syntax.Program.badProgram_of_ofText {grammar : Grammar} {sourceType : SourceType}
    {text : String} {e : Error} (h : Program.ofText grammar sourceType text = .error e) :
    ∃ line column message, e = .badProgram line column message := by
  unfold ofText at h
  simp only at h
  split at h
  · rw [← Except.error.inj h]
    exact ⟨_, _, _, rfl⟩
  · cases h

/-! ### Diagnostics -/

namespace Diagnostic

/-- A failure is of no rule. -/
theorem rule_ofError (e : Error) : (ofError e).rule = none := by
  cases e <;> rfl

theorem fatal_ofError (e : Error) : (ofError e).fatal = true := by
  cases e <;> rfl

theorem precedes_iff {a b : Diagnostic} :
    a.precedes b = true ↔ a.line < b.line ∨ a.line = b.line ∧
      (a.column < b.column ∨ a.column = b.column ∧ (a.fatal = true ∨ b.fatal = false)) := by
  simp only [precedes, Bool.or_eq_true, Bool.and_eq_true, decide_eq_true_eq, beq_iff_eq,
    Bool.not_eq_true']

theorem precedes_trans (a b c : Diagnostic) (hab : a.precedes b = true)
    (hbc : b.precedes c = true) : a.precedes c = true := by
  rw [precedes_iff] at hab hbc ⊢
  grind

theorem precedes_total (a b : Diagnostic) : (a.precedes b || b.precedes a) = true := by
  rw [Bool.or_eq_true, precedes_iff, precedes_iff]
  grind

/-- Diagnostics are told in order. -/
theorem pairwise_sort (ds : List Diagnostic) :
    (sort ds).Pairwise fun a b => a.precedes b = true :=
  List.pairwise_mergeSort precedes_trans precedes_total ds

theorem mem_sort {d : Diagnostic} {ds : List Diagnostic} : d ∈ sort ds ↔ d ∈ ds :=
  (List.mergeSort_perm ds precedes).mem_iff

end Diagnostic

/-! ### Linters -/

/-- **What a linter does with a text**: it refuses what is no program, and tells the
sorted reports of the enabled rules on a program. -/
theorem Linter.check_eq (linter : Linter) (grammar : Grammar) (text : String)
    (sourceType : SourceType) :
    linter.check grammar text sourceType =
      (Program.ofText grammar sourceType text).map fun program =>
        Diagnostic.sort (linter.registry.flatMap (runRule linter.settings (analyze program))) := by
  unfold check
  cases Program.ofText grammar sourceType text with
  | error e => rfl
  | ok program =>
    simp only [bind, Except.bind, analyze_validate, pure, Except.pure]
    rfl

/-- What a linter tells: a failure on what is no program, and on a program the sorted
reports of the enabled rules. -/
theorem Linter.verifyAs_eq (linter : Linter) (grammar : Grammar) (text : String)
    (sourceType : SourceType) :
    linter.verifyAs grammar text sourceType =
      match Program.ofText grammar sourceType text with
      | .error e => [.ofError e]
      | .ok program =>
        Diagnostic.sort (linter.registry.flatMap (runRule linter.settings (analyze program))) := by
  rw [verifyAs, check_eq]
  cases Program.ofText grammar sourceType text <;> rfl

/-- What one rule tells carries the name and the severity of the rule. -/
theorem Linter.of_mem_runRule {settings : Settings} {tree : ScopeTree} {rule : Rule}
    {d : Diagnostic} (h : d ∈ runRule settings tree rule) :
    d.rule = some rule.name ∧ d.severity = settings.severity rule.name ∧
      (settings.severity rule.name).isEnabled = true ∧ d.fatal = false := by
  unfold runRule at h
  simp only at h
  split at h
  · rename_i henabled
    obtain ⟨report, _, rfl⟩ := List.mem_map.mp h
    exact ⟨rfl, rfl, henabled, rfl⟩
  · exact absurd h List.not_mem_nil

/-- The diagnostics of an accepted program are the reports of the enabled rules, in
order. -/
theorem Linter.eq_of_check {linter : Linter} {grammar : Grammar} {text : String}
    {sourceType : SourceType} {diagnostics : List Diagnostic}
    (h : linter.check grammar text sourceType = .ok diagnostics) :
    diagnostics = Diagnostic.sort (linter.registry.flatMap (runRule linter.settings
      (analyze ⟨Source.ofText text, Program.treeOf grammar text, sourceType⟩))) := by
  rw [check_eq] at h
  cases hprogram : Program.ofText grammar sourceType text with
  | error e =>
    rw [hprogram] at h
    cases h
  | ok program =>
    rw [hprogram] at h
    rw [← Program.eq_of_ofText hprogram]
    exact (Except.ok.inj h).symm

/-- The linter with the built-in rules tells what one rule reports. -/
theorem Linter.check_builtin (settings : Settings) (grammar : Grammar) (text : String)
    (sourceType : SourceType) :
    (⟨settings, Registry.builtin⟩ : Linter).check grammar text sourceType =
      (Program.ofText grammar sourceType text).map fun program =>
        Diagnostic.sort (runRule settings (analyze program) NoUndefined.rule) := by
  rw [check_eq]
  congr 1
  funext program
  show Diagnostic.sort (runRule settings (analyze program) NoUndefined.rule ++ []) = _
  rw [List.append_nil]

/-- What a linter tells of a rule is a report of a registered rule on the program. -/
theorem Linter.exists_report {linter : Linter} {grammar : Grammar} {text : String}
    {sourceType : SourceType} {d : Diagnostic} {name : String}
    (hd : d ∈ linter.verifyAs grammar text sourceType) (hname : d.rule = some name) :
    ∃ rule ∈ linter.registry, rule.name = name ∧
      ∃ report ∈ rule.check
        (analyze ⟨Source.ofText text, Program.treeOf grammar text, sourceType⟩),
        d = .ofReport name (linter.settings.severity name) report := by
  unfold verifyAs at hd
  cases hcheck : linter.check grammar text sourceType with
  | error e =>
    rw [hcheck] at hd
    rw [List.mem_singleton.mp hd, Diagnostic.rule_ofError] at hname
    cases hname
  | ok diagnostics =>
    rw [hcheck] at hd
    replace hd : d ∈ diagnostics := hd
    rw [eq_of_check hcheck, Diagnostic.mem_sort] at hd
    obtain ⟨rule, hrule, hd⟩ := List.mem_flatMap.mp hd
    unfold runRule at hd
    simp only at hd
    split at hd
    · obtain ⟨report, hreport, rfl⟩ := List.mem_map.mp hd
      obtain rfl : rule.name = name := Option.some.inj hname
      exact ⟨rule, hrule, rfl, report, hreport, rfl⟩
    · exact absurd hd List.not_mem_nil

/-- **The scope tree of every program is well formed**, so validation accepts it, and
no linter ever tells of a malformed scope. -/
theorem wellFormed_and_never_malformed :
    (∀ program : Program,
      (analyze program).WellFormed ∧ (analyze program).validate = .ok ()) ∧
    ∀ (linter : Linter) (grammar : Grammar) (text : String) (sourceType : SourceType)
      (scope : ScopeId) (message : String),
      linter.check grammar text sourceType ≠ .error (.malformedScope scope message) := by
  constructor
  · exact fun program => ⟨analyze_wellFormed program, analyze_validate program⟩
  · intro linter grammar text sourceType scope message
    rw [Linter.check_eq]
    cases hprogram : Program.ofText grammar sourceType text with
    | error e =>
      obtain ⟨line, column, text, rfl⟩ := Program.badProgram_of_ofText hprogram
      exact fun he => nomatch he
    | ok program => exact fun he => nomatch he

end ScopeLint
