import ScopeLint.Proofs.Config.Levels
import ScopeLint.Proofs.Lint.Once

/-! # Rules do not interfere with each other

A linter runs its rules one after the other on the same scope tree and sorts all
that they report.  The sort keeps the order of what it does not tell apart, so
picking diagnostics out of a sorted list is sorting what is picked
(`Diagnostic.filter_sort`).  Hence what a linter tells of one rule does not depend
on the other rules, and at one place the rules speak in the order registered.
-/

namespace ScopeLint

open Syntax (Program Grammar SourceType)

namespace Diagnostic

/-! ### Sorting and picking -/

/-- A list is cut in one way into what must stand before a diagnostic and what may
stand behind it. -/
theorem split_unique {d : Diagnostic} {before after before' after' : List Diagnostic}
    (h : before ++ after = before' ++ after')
    (hbefore : ∀ e ∈ before, (!d.precedes e) = true) (hafter : ∀ e ∈ after, d.precedes e = true)
    (hbefore' : ∀ e ∈ before', (!d.precedes e) = true)
    (hafter' : ∀ e ∈ after', d.precedes e = true) : before = before' ∧ after = after' := by
  have hpick : ∀ {xs ys : List Diagnostic}, (∀ e ∈ xs, (!d.precedes e) = true) →
      (∀ e ∈ ys, d.precedes e = true) → (xs ++ ys).filter (!d.precedes ·) = xs := by
    intro xs ys hxs hys
    have hnone : ys.filter (!d.precedes ·) = [] :=
      List.filter_eq_nil_iff.mpr fun e he hnot => by simp [hys e he] at hnot
    rw [List.filter_append, List.filter_eq_self.mpr hxs, hnone, List.append_nil]
  have hfirst : before = before' := by
    rw [← hpick hbefore hafter, h, hpick hbefore' hafter']
  exact ⟨hfirst, List.append_cancel_left (hfirst ▸ h)⟩

/-- **Picking out of sorted diagnostics is sorting what is picked.** -/
theorem filter_sort (p : Diagnostic → Bool) (ds : List Diagnostic) :
    (sort ds).filter p = sort (ds.filter p) := by
  induction ds with
  | nil => simp [sort]
  | cons d ds ih =>
    obtain ⟨before, after, hcons, hrest, hbefore⟩ :=
      List.mergeSort_cons precedes_trans precedes_total d ds
    have hsorted := pairwise_sort (d :: ds)
    rw [sort] at hsorted ih ⊢
    rw [hcons] at hsorted ⊢
    rw [hrest, List.filter_append] at ih
    have hafter := (List.pairwise_cons.mp (List.pairwise_append.mp hsorted).2.1).1
    by_cases hp : p d = true
    · -- The picked list is cut at the same place, for it is cut by what stands before `d`.
      obtain ⟨before', after', hcons', hrest', hbefore'⟩ :=
        List.mergeSort_cons precedes_trans precedes_total d (ds.filter p)
      have hsorted' := pairwise_sort (d :: ds.filter p)
      rw [sort, hcons'] at hsorted'
      have hafter' := (List.pairwise_cons.mp (List.pairwise_append.mp hsorted').2.1).1
      rw [sort, hrest'] at ih
      obtain ⟨rfl, rfl⟩ := split_unique ih
        (fun e he => hbefore e (List.mem_filter.mp he).1)
        (fun e he => hafter e (List.mem_filter.mp he).1) hbefore' hafter'
      rw [List.filter_append, List.filter_cons_of_pos hp, List.filter_cons_of_pos hp, sort, hcons']
    · rw [List.filter_append, List.filter_cons_of_neg hp, List.filter_cons_of_neg hp]
      exact ih

/-- Whether a diagnostic is a problem that a rule found at a line and column. -/
def isAt (line column : Nat) (d : Diagnostic) : Bool :=
  !d.fatal && d.line == line && d.column == column

/-- Problems at one place stand in the order found. -/
theorem filter_isAt_sort (line column : Nat) (ds : List Diagnostic) :
    (sort ds).filter (isAt line column) = ds.filter (isAt line column) := by
  rw [filter_sort]
  refine List.mergeSort_of_pairwise (List.pairwise_of_forall_mem_list fun a ha b hb => ?_)
  have hat : ∀ d ∈ ds.filter (isAt line column),
      d.fatal = false ∧ d.line = line ∧ d.column = column := by
    intro d hd
    have hd := (List.mem_filter.mp hd).2
    simp only [isAt, Bool.and_eq_true, Bool.not_eq_true', beq_iff_eq] at hd
    exact ⟨hd.1.1, hd.1.2, hd.2⟩
  obtain ⟨_, hline, hcolumn⟩ := hat a ha
  obtain ⟨hfatal', hline', hcolumn'⟩ := hat b hb
  rw [precedes_iff]
  exact Or.inr ⟨hline.trans hline'.symm, Or.inr ⟨hcolumn.trans hcolumn'.symm, Or.inr hfatal'⟩⟩

/-- A diagnostic of a rule with another severity; those of other rules stay. -/
def regrade (name : String) (severity : Severity) (d : Diagnostic) : Diagnostic :=
  if d.rule = some name then { d with severity } else d

/-- Severities do not count in the order. -/
theorem map_regrade_sort (name : String) (severity : Severity) (ds : List Diagnostic) :
    (sort ds).map (regrade name severity) = sort (ds.map (regrade name severity)) := by
  have hplace : ∀ d : Diagnostic, (regrade name severity d).line = d.line ∧
      (regrade name severity d).column = d.column ∧
      (regrade name severity d).fatal = d.fatal := by
    intro d
    unfold regrade
    split
    · exact ⟨rfl, rfl, rfl⟩
    · exact ⟨rfl, rfl, rfl⟩
  refine List.map_mergeSort fun a _ b _ => ?_
  obtain ⟨hline, hcolumn, hfatal⟩ := hplace a
  obtain ⟨hline', hcolumn', hfatal'⟩ := hplace b
  rw [precedes, precedes, hline, hcolumn, hfatal, hline', hcolumn', hfatal']

end Diagnostic

namespace Linter

/-! ### One rule -/

section Rules

variable {settings settings' : Settings} {tree : ScopeTree} {rule : Rule} {name : String}

/-- What a rule tells depends on its own severity only. -/
theorem runRule_congr (h : settings.severity rule.name = settings'.severity rule.name) :
    runRule settings tree rule = runRule settings' tree rule := by
  unfold runRule
  rw [h]

theorem runRule_of_off (h : settings.severity rule.name = .off) :
    runRule settings tree rule = [] := by
  unfold runRule
  rw [h]
  rfl

/-- Of what the rules tell, the part of one name is what they tell when all others are
off. -/
theorem filter_runRule (settings : Settings) (tree : ScopeTree) (rule : Rule) (name : String) :
    (runRule settings tree rule).filter (·.rule = some name) =
      runRule (settings.only name) tree rule := by
  by_cases hname : rule.name = name
  · have hkeep : (runRule settings tree rule).filter (·.rule = some name) =
        runRule settings tree rule :=
      List.filter_eq_self.mpr fun d hd => by simp [(of_mem_runRule hd).1, hname]
    rw [hkeep]
    exact runRule_congr (by simp [hname])
  · have hoff : (settings.only name).severity rule.name = .off := by simp [hname]
    rw [runRule_of_off hoff]
    exact List.filter_eq_nil_iff.mpr fun d hd => by simp [(of_mem_runRule hd).1, hname]

/-- A rule that stays enabled tells the same with another severity. -/
theorem map_regrade_runRule {severity : Severity}
    (hold : (settings.severity name).isEnabled = true) (hnew : severity.isEnabled = true)
    (tree : ScopeTree) (rule : Rule) :
    (runRule settings tree rule).map (.regrade name severity) =
      runRule (settings.withLevel name severity) tree rule := by
  by_cases hname : rule.name = name
  · subst hname
    have hsame : ∀ report : Report,
        (Diagnostic.ofReport rule.name (settings.severity rule.name) report).regrade rule.name
          severity = .ofReport rule.name severity report := fun report => if_pos rfl
    have hseverity : (settings.withLevel rule.name severity).severity rule.name = severity := by
      simp
    unfold runRule
    simp only [hseverity, hold, hnew, if_true, List.map_map]
    exact List.map_congr_left fun report _ => hsame report
  · have hother : ∀ d ∈ runRule settings tree rule, d.regrade name severity = d := by
      intro d hd
      refine if_neg fun hrule => hname ?_
      rw [(of_mem_runRule hd).1] at hrule
      exact Option.some.inj hrule
    rw [List.map_congr_left hother, List.map_id']
    exact runRule_congr (by simp [hname])

end Rules

/-! ### All rules -/

section Runs

variable (settings : Settings) (registry : Registry) (grammar : Grammar) (text : String)
  (sourceType : SourceType)

theorem ofRules_eq {settings : Settings} {registry : Registry}
    (hvalid : settings.validate registry = .ok ()) :
    ofRules settings registry = .ok ⟨settings, registry⟩ := by
  rw [ofRules, hvalid]
  rfl

/-- What is told of one rule is what is told when all others are left out. -/
theorem filter_verifyAs (name : String) :
    ((⟨settings, registry⟩ : Linter).verifyAs grammar text sourceType).filter
        (·.rule = some name) =
      ((⟨settings.only name, registry⟩ : Linter).verifyAs grammar text sourceType).filter
        (!·.fatal) := by
  rw [verifyAs_eq, verifyAs_eq]
  cases Program.ofText grammar sourceType text with
  | error e => simp [Diagnostic.rule_ofError, Diagnostic.fatal_ofError]
  | ok program =>
    have hnone : ∀ d ∈ Diagnostic.sort
        (registry.flatMap (runRule (settings.only name) (analyze program))),
        (!d.fatal) = true := by
      intro d hd
      obtain ⟨rule, _, hd⟩ := List.mem_flatMap.mp (Diagnostic.mem_sort.mp hd)
      simp [(of_mem_runRule hd).2.2.2]
    show (Diagnostic.sort _).filter _ = (Diagnostic.sort _).filter _
    rw [List.filter_eq_self.mpr hnone, Diagnostic.filter_sort, List.filter_flatMap]
    simp only [filter_runRule]

/-- Another severity of a rule that stays enabled shows in the severities alone. -/
theorem map_regrade_verifyAs {name : String} {severity : Severity}
    (hold : (settings.severity name).isEnabled = true) (hnew : severity.isEnabled = true) :
    ((⟨settings, registry⟩ : Linter).verifyAs grammar text sourceType).map
        (.regrade name severity) =
      (⟨settings.withLevel name severity, registry⟩ : Linter).verifyAs grammar text
        sourceType := by
  rw [verifyAs_eq, verifyAs_eq]
  cases Program.ofText grammar sourceType text with
  | error e => simp [Diagnostic.regrade, Diagnostic.rule_ofError]
  | ok program =>
    show (Diagnostic.sort _).map _ = Diagnostic.sort _
    rw [Diagnostic.map_regrade_sort, List.map_flatMap]
    simp only [map_regrade_runRule hold hnew]

/-- A rule that is off is as good as not named. -/
theorem verifyAs_withLevel_off (name : String) :
    (⟨settings.withLevel name .off, registry⟩ : Linter).verifyAs grammar text sourceType =
      (⟨settings.without name, registry⟩ : Linter).verifyAs grammar text sourceType := by
  have hsame : runRule (settings.withLevel name .off) = runRule (settings.without name) := by
    funext tree rule
    exact runRule_congr (by simp)
  rw [verifyAs_eq, verifyAs_eq, hsame]

/-- At one place the rules speak in the order registered. -/
theorem filter_isAt_verifyAs (line column : Nat) :
    ((⟨settings, registry⟩ : Linter).verifyAs grammar text sourceType).filter
        (Diagnostic.isAt line column) =
      registry.flatMap fun rule =>
        ((⟨settings, [rule]⟩ : Linter).verifyAs grammar text sourceType).filter
          (Diagnostic.isAt line column) := by
  simp only [verifyAs_eq]
  cases Program.ofText grammar sourceType text with
  | error e => simp [Diagnostic.isAt, Diagnostic.fatal_ofError]
  | ok program =>
    simp only [Diagnostic.filter_isAt_sort, List.filter_flatMap, List.flatMap_singleton]

end Runs

end Linter

/-- **Rules do not interfere with each other.**  Of any valid settings: what is told of one
rule is all that is told when only this rule is named; another severity of an enabled rule
changes the severities of its own diagnostics and nothing else; a rule that is off is as
good as not named; and at one place the diagnostics of each rule, as they are told when no
other rule is registered, stand in the order in which the rules are registered. -/
theorem rules_independent {settings : Settings} {registry : Registry} {linter : Linter}
    (hlinter : Linter.ofRules settings registry = .ok linter) (grammar : Grammar) (text : String)
    (sourceType : SourceType) :
    (∀ name, ∃ alone, Linter.ofRules (settings.only name) registry = .ok alone ∧
      (linter.verifyAs grammar text sourceType).filter (·.rule = some name) =
        (alone.verifyAs grammar text sourceType).filter (!·.fatal)) ∧
    (∀ name severity, (settings.severity name).isEnabled = true → severity.isEnabled = true →
      ∃ regraded, Linter.ofRules (settings.withLevel name severity) registry = .ok regraded ∧
        regraded.verifyAs grammar text sourceType =
          (linter.verifyAs grammar text sourceType).map (.regrade name severity)) ∧
    (∀ name, registry.knows name = true →
      ∃ silent unnamed, Linter.ofRules (settings.withLevel name .off) registry = .ok silent ∧
        Linter.ofRules (settings.without name) registry = .ok unnamed ∧
        silent.verifyAs grammar text sourceType = unnamed.verifyAs grammar text sourceType) ∧
    ∀ line column, (linter.verifyAs grammar text sourceType).filter (Diagnostic.isAt line column) =
      registry.flatMap fun rule =>
        ((⟨settings, [rule]⟩ : Linter).verifyAs grammar text sourceType).filter
          (Diagnostic.isAt line column) := by
  have hvalid : settings.validate registry = .ok () := by
    cases h : settings.validate registry with
    | ok => rfl
    | error e =>
      rw [Linter.ofRules, h] at hlinter
      cases hlinter
  obtain rfl : (⟨settings, registry⟩ : Linter) = linter := by
    rw [Linter.ofRules_eq hvalid] at hlinter
    exact Except.ok.inj hlinter
  refine ⟨fun name => ?_, fun name severity hold hnew => ?_, fun name hname => ?_, ?_⟩
  · exact ⟨_, Linter.ofRules_eq (Settings.validate_only hvalid name),
      Linter.filter_verifyAs settings registry grammar text sourceType name⟩
  · have hknown := Settings.knows_of_isEnabled hvalid hold
    exact ⟨_, Linter.ofRules_eq (Settings.validate_withLevel hvalid hknown severity),
      (Linter.map_regrade_verifyAs settings registry grammar text sourceType hold hnew).symm⟩
  · exact ⟨_, _, Linter.ofRules_eq (Settings.validate_withLevel hvalid hname .off),
      Linter.ofRules_eq (Settings.validate_without hvalid name),
      Linter.verifyAs_withLevel_off settings registry grammar text sourceType name⟩
  · exact Linter.filter_isAt_verifyAs settings registry grammar text sourceType

/-! ### Two rules at one word -/

namespace TwoRules

/-- A rule that reports what nothing declares. -/
def undeclared : Rule :=
  .unresolvedUses ⟨"no-undeclared", "disallow undeclared names", .possibleErrors, true⟩
    "Not declared."

/-- Its registration behind the built-in rule. -/
def registry : Registry := [NoUndefined.rule, undeclared]

/-- Settings that enable both. -/
def settings : Settings := Settings.default.withLevel undeclared.name .warn

theorem validate_settings : settings.validate registry = .ok () := by decide +kernel

theorem ofText_text : Program.ofText AssignedToItself.grammar .script AssignedToItself.text =
    .ok ⟨Source.ofText AssignedToItself.text, AssignedToItself.root, .script⟩ := by
  rw [Program.ofText, AssignedToItself.treeOf_text]
  rfl

/-- What a linter tells of the first word of `undefined = undefined`. -/
theorem filter_verifyAs_text (linter : Linter) :
    (linter.verifyAs AssignedToItself.grammar AssignedToItself.text .script).filter
        (Diagnostic.isAt 1 1) =
      (linter.registry.flatMap (Linter.runRule linter.settings
        (analyze ⟨Source.ofText AssignedToItself.text, AssignedToItself.root, .script⟩))).filter
          (Diagnostic.isAt 1 1) := by
  rw [Linter.verifyAs_eq, ofText_text]
  exact Diagnostic.filter_isAt_sort 1 1 _

/-- A problem at the first word. -/
def problem (rule : String) (severity : Severity) (message : String) : Diagnostic where
  rule := some rule
  severity
  message
  line := 1
  column := 1
  offset := 0
  stop := 9
  nodeKind := some "undefined"
  fatal := false

end TwoRules

/-- In `undefined = undefined` two rules find both words.  Each tells the same without the
other, one of them can be made an error or be switched off, and at the first word they speak
in the order registered. -/
theorem rules_independent_twoRules :
    Linter.ofRules TwoRules.settings TwoRules.registry =
        .ok ⟨TwoRules.settings, TwoRules.registry⟩ ∧
      (∃ alone, Linter.ofRules (TwoRules.settings.only TwoRules.undeclared.name)
          TwoRules.registry = .ok alone ∧
        ((⟨TwoRules.settings, TwoRules.registry⟩ : Linter).verifyAs AssignedToItself.grammar
            AssignedToItself.text .script).filter (·.rule = some TwoRules.undeclared.name) =
          (alone.verifyAs AssignedToItself.grammar AssignedToItself.text .script).filter
            (!·.fatal)) ∧
      (TwoRules.settings.severity TwoRules.undeclared.name).isEnabled = true ∧
      Severity.error.isEnabled = true ∧
      (∃ regraded, Linter.ofRules (TwoRules.settings.withLevel TwoRules.undeclared.name .error)
          TwoRules.registry = .ok regraded ∧
        regraded.verifyAs AssignedToItself.grammar AssignedToItself.text .script =
          ((⟨TwoRules.settings, TwoRules.registry⟩ : Linter).verifyAs AssignedToItself.grammar
            AssignedToItself.text .script).map (.regrade TwoRules.undeclared.name .error)) ∧
      TwoRules.registry.knows NoUndefined.rule.name = true ∧
      (∃ silent unnamed,
        Linter.ofRules (TwoRules.settings.withLevel NoUndefined.rule.name .off)
          TwoRules.registry = .ok silent ∧
        Linter.ofRules (TwoRules.settings.without NoUndefined.rule.name) TwoRules.registry =
          .ok unnamed ∧
        silent.verifyAs AssignedToItself.grammar AssignedToItself.text .script =
          unnamed.verifyAs AssignedToItself.grammar AssignedToItself.text .script) ∧
      ((⟨TwoRules.settings, TwoRules.registry⟩ : Linter).verifyAs AssignedToItself.grammar
          AssignedToItself.text .script).filter (Diagnostic.isAt 1 1) =
        [TwoRules.problem "no-undefined" .error "Unexpected use of undefined.",
          TwoRules.problem "no-undeclared" .warn "Not declared."] := by
  have hlinter := Linter.ofRules_eq TwoRules.validate_settings
  have hall := rules_independent hlinter AssignedToItself.grammar AssignedToItself.text .script
  have henabled : (TwoRules.settings.severity TwoRules.undeclared.name).isEnabled = true := by
    decide +kernel
  have hknown : TwoRules.registry.knows NoUndefined.rule.name = true := by decide +kernel
  refine ⟨hlinter, hall.1 _, henabled, rfl, hall.2.1 _ .error henabled rfl, hknown,
    hall.2.2.1 _ hknown, ?_⟩
  rw [hall.2.2.2 1 1]
  simp only [TwoRules.filter_verifyAs_text]
  decide +kernel

end ScopeLint
