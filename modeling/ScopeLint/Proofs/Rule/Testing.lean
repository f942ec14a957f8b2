import ScopeLint.Proofs.Lint.Tester

/-! # What a test of a rule says

A test goes through its snippets one after the other and stops at the first thing that is
not as expected.  What is expected is said here without that order: a snippet is a program
or is not, the reports on it stand in source order (`Rule.InSourceOrder`, which leaves no
choice), and each is the problem expected in its place or is not
(`Report.Meets`).  A test passes exactly when all of this holds, and otherwise it
tells the first thing that does not (`Rule.test_outcome`).  The lemmas go from the inside
out: one check, one report, the reports on a snippet, the snippets.
-/

namespace ScopeLint

open Syntax (Program Grammar SourceType)

/-! ### Checks in a row -/

section Checks

variable {ε α β : Type}

theorem bind_eq_ok_iff {x : Except ε α} {f : α → Except ε β} {b : β} :
    x >>= f = .ok b ↔ ∃ a, x = .ok a ∧ f a = .ok b := by
  cases x with
  | error e => exact ⟨nofun, fun ⟨_, h, _⟩ => nomatch h⟩
  | ok a => exact ⟨fun h => ⟨a, rfl, h⟩, fun ⟨_, h, hf⟩ => by cases h; exact hf⟩

theorem bind_eq_error_iff {x : Except ε α} {f : α → Except ε β} {e : ε} :
    x >>= f = .error e ↔ x = .error e ∨ ∃ a, x = .ok a ∧ f a = .error e := by
  cases x with
  | error e' =>
    exact ⟨fun h => Or.inl (congrArg Except.error (Except.error.inj h)),
      fun h => h.elim (fun h => congrArg Except.error (Except.error.inj h)) nofun⟩
  | ok a =>
    exact ⟨fun h => Or.inr ⟨a, rfl, h⟩,
      fun h => h.elim nofun fun ⟨_, h, hf⟩ => by cases h; exact hf⟩

variable {check : α → Except ε Unit} {items : List α}

/-- A list of checks passes when each check does. -/
theorem forM_eq_ok_iff {u : Unit} :
    items.forM check = .ok u ↔ ∀ a ∈ items, check a = .ok () := by
  induction items with
  | nil => exact iff_of_true rfl nofun
  | cons first items ih =>
    show (check first >>= fun _ => items.forM check) = .ok () ↔ _
    rw [bind_eq_ok_iff, List.forall_mem_cons, ih]
    exact ⟨fun ⟨_, h⟩ => h, fun h => ⟨(), h⟩⟩

/-- A list of checks tells the first failure. -/
theorem forM_eq_error_iff {e : ε} :
    items.forM check = .error e ↔ ∃ before a after, items = before ++ a :: after ∧
      (∀ b ∈ before, check b = .ok ()) ∧ check a = .error e := by
  induction items with
  | nil => exact iff_of_false nofun fun ⟨_, _, _, h, _⟩ => absurd h (by simp)
  | cons first items ih =>
    show (check first >>= fun _ => items.forM check) = .error e ↔ _
    rw [bind_eq_error_iff, ih]
    constructor
    · rintro (hfirst | ⟨_, hfirst, before, a, after, rfl, hbefore, ha⟩)
      · exact ⟨[], first, items, rfl, nofun, hfirst⟩
      · exact ⟨first :: before, a, after, rfl, List.forall_mem_cons.mpr ⟨hfirst, hbefore⟩, ha⟩
    · rintro ⟨before, a, after, hitems, hbefore, ha⟩
      rcases List.cons_eq_append_iff.mp hitems with ⟨rfl, hcons⟩ | ⟨before, rfl, rfl⟩
      · obtain ⟨rfl, rfl⟩ := List.cons.inj hcons
        exact Or.inl ha
      · obtain ⟨hfirst, hbefore⟩ := List.forall_mem_cons.mp hbefore
        exact Or.inr ⟨(), hfirst, before, a, after, rfl, hbefore, ha⟩

end Checks

/-! ### The order of reports -/

/-- Whether a report starts at an offset. -/
def Report.startsAt (start : Nat) (report : Report) : Bool := report.node.span.start == start

namespace Rule

/-- Reports in source order: by their starts, and at each start in the order found. -/
structure InSourceOrder (found sorted : List Report) : Prop where
  increasing : sorted.Pairwise fun a b => a.node.span.start ≤ b.node.span.start
  stable : ∀ start, sorted.filter (·.startsAt start) = found.filter (·.startsAt start)

/-- Sorting gives the source order. -/
theorem inSourceOrder_sorted (found : List Report) :
    InSourceOrder found (inSourceOrder found) := by
  have htrans : ∀ a b c : Report, decide (a.node.span.start ≤ b.node.span.start) = true →
      decide (b.node.span.start ≤ c.node.span.start) = true →
      decide (a.node.span.start ≤ c.node.span.start) = true := by
    intro a b c hab hbc
    simp only [decide_eq_true_eq] at hab hbc ⊢
    omega
  have htotal : ∀ a b : Report, (decide (a.node.span.start ≤ b.node.span.start) ||
      decide (b.node.span.start ≤ a.node.span.start)) = true := by
    intro a b
    simp only [Bool.or_eq_true, decide_eq_true_eq]
    omega
  refine ⟨(List.pairwise_mergeSort htrans htotal found).imp of_decide_eq_true, fun start => ?_⟩
  -- The reports at one start are in order as they were found, so the sort keeps them so.
  have hsame : (found.filter (·.startsAt start)).Pairwise
      fun a b => decide (a.node.span.start ≤ b.node.span.start) = true := by
    refine List.pairwise_of_forall_mem_list fun a ha b hb => decide_eq_true ?_
    have ha : a.node.span.start = start := beq_iff_eq.mp (List.mem_filter.mp ha).2
    have hb : b.node.span.start = start := beq_iff_eq.mp (List.mem_filter.mp hb).2
    omega
  have hkept := (List.sublist_mergeSort htrans htotal hsame List.filter_sublist).filter
    (·.startsAt start)
  rw [List.filter_filter] at hkept
  simp only [Bool.and_self] at hkept
  exact (hkept.eq_of_length ((List.mergeSort_perm found _).filter _).length_eq.symm).symm

namespace InSourceOrder

variable {found sorted sorted' : List Report}

/-- The head of a list in order starts no later than a report of a list that has the same
reports at each start. -/
theorem head_le {a b : Report} {as bs : List Report}
    (hincreasing : (a :: as).Pairwise fun a b => a.node.span.start ≤ b.node.span.start)
    (hsame : ∀ start, (a :: as).filter (·.startsAt start) = (b :: bs).filter (·.startsAt start)) :
    a.node.span.start ≤ b.node.span.start := by
  have hb : b ∈ (a :: as).filter (·.startsAt b.node.span.start) := by
    rw [hsame]
    exact List.mem_filter.mpr ⟨List.mem_cons_self, beq_self_eq_true b.node.span.start⟩
  rcases List.mem_cons.mp (List.mem_filter.mp hb).1 with rfl | hb
  · exact Nat.le_refl _
  · exact List.rel_of_pairwise_cons hincreasing hb

/-- Lists in order with the same reports at each start are the same. -/
theorem eq_of_filter (ha : sorted.Pairwise fun a b => a.node.span.start ≤ b.node.span.start)
    (hb : sorted'.Pairwise fun a b => a.node.span.start ≤ b.node.span.start)
    (hsame : ∀ start, sorted.filter (·.startsAt start) = sorted'.filter (·.startsAt start)) :
    sorted = sorted' := by
  have hself : ∀ r : Report, r.startsAt r.node.span.start = true :=
    fun r => beq_self_eq_true r.node.span.start
  induction sorted generalizing sorted' with
  | nil =>
    cases sorted' with
    | nil => rfl
    | cons b bs =>
      have hnone := hsame b.node.span.start
      rw [List.filter_cons_of_pos (hself b)] at hnone
      cases hnone
  | cons a as ih =>
    cases sorted' with
    | nil =>
      have hnone := hsame a.node.span.start
      rw [List.filter_cons_of_pos (hself a)] at hnone
      cases hnone
    | cons b bs =>
      -- Both heads come first at one start, so they are one report.
      have hstart : a.node.span.start = b.node.span.start :=
        Nat.le_antisymm (head_le ha hsame) (head_le hb fun start => (hsame start).symm)
      have hheads := hsame a.node.span.start
      rw [List.filter_cons_of_pos (hself a), List.filter_cons_of_pos (hstart ▸ hself b)] at hheads
      obtain ⟨rfl, _⟩ := List.cons.inj hheads
      refine congrArg (a :: ·) (ih ha.of_cons hb.of_cons fun start => ?_)
      have htails := hsame start
      by_cases hat : a.startsAt start = true
      · rw [List.filter_cons_of_pos hat, List.filter_cons_of_pos hat] at htails
        exact (List.cons.inj htails).2
      · rw [List.filter_cons_of_neg hat, List.filter_cons_of_neg hat] at htails
        exact htails

end InSourceOrder

/-- **There is one source order**, and sorting gives it. -/
theorem inSourceOrder_iff {found sorted : List Report} :
    InSourceOrder found sorted ↔ sorted = inSourceOrder found := by
  constructor
  · intro h
    have hsorted := inSourceOrder_sorted found
    exact InSourceOrder.eq_of_filter h.increasing hsorted.increasing fun start =>
      (h.stable start).trans (hsorted.stable start).symm
  · rintro rfl
    exact inSourceOrder_sorted found

/-- Nothing stands in order where nothing was found. -/
theorem inSourceOrder_nil_iff {found : List Report} : InSourceOrder found [] ↔ found = [] := by
  rw [inSourceOrder_iff]
  constructor
  · intro h
    have hsorted : (inSourceOrder found).Perm found := List.mergeSort_perm found _
    exact (h ▸ hsorted).symm.eq_nil
  · rintro rfl
    exact List.mergeSort_nil.symm

end Rule

/-! ### One report -/

namespace Report

/-- A report is the problem expected: its message is, and so are kind, line and column
where they are given. -/
structure Meets (report : Report) (expected : ExpectedError) : Prop where
  message : report.message = expected.message
  kind : expected.nodeKinds ≠ [] → report.node.kind.name ∈ expected.nodeKinds
  line : ∀ line, expected.line = some line → report.node.start.line + 1 = line
  column : ∀ column, expected.column = some column → report.node.start.column + 1 = column

/-- What is told of a report that is not the problem expected at its index: the first that
differs of message, kind, line and column. -/
inductive Misses (rule code : String) (index : Nat) (report : Report)
    (expected : ExpectedError) : TestFailure → Prop
  | message (hmessage : report.message ≠ expected.message) :
    Misses rule code index report expected
      (.wrongMessage rule code index report.message expected.message)
  | kind (hmessage : report.message = expected.message) (hgiven : expected.nodeKinds ≠ [])
    (hkind : report.node.kind.name ∉ expected.nodeKinds) :
    Misses rule code index report expected
      (.wrongKind rule code index report.node.kind.name expected.nodeKinds)
  | line (hmessage : report.message = expected.message)
    (hkind : expected.nodeKinds ≠ [] → report.node.kind.name ∈ expected.nodeKinds)
    {line : Nat} (hgiven : expected.line = some line)
    (hline : report.node.start.line + 1 ≠ line) :
    Misses rule code index report expected
      (.wrongLine rule code index (report.node.start.line + 1) line)
  | column (hmessage : report.message = expected.message)
    (hkind : expected.nodeKinds ≠ [] → report.node.kind.name ∈ expected.nodeKinds)
    (hline : ∀ line, expected.line = some line → report.node.start.line + 1 = line)
    {column : Nat} (hgiven : expected.column = some column)
    (hcolumn : report.node.start.column + 1 ≠ column) :
    Misses rule code index report expected
      (.wrongColumn rule code index (report.node.start.column + 1) column)

end Report

namespace Rule

variable {rule : Rule} {grammar : Grammar} {sourceType : SourceType}

theorem require_eq_ok_iff {ok : Bool} {failure : TestFailure} {u : Unit} :
    require ok failure = .ok u ↔ ok = true := by
  cases ok with
  | true => exact iff_of_true rfl rfl
  | false => exact iff_of_false nofun nofun

theorem require_eq_error_iff {ok : Bool} {failure e : TestFailure} :
    require ok failure = .error e ↔ ¬ ok = true ∧ failure = e := by
  cases ok with
  | true => exact iff_of_false nofun fun h => h.1 rfl
  | false => exact ⟨fun h => ⟨nofun, Except.error.inj h⟩, fun h => congrArg Except.error h.2⟩

theorem anyKind_iff {kinds : List String} {kind : String} :
    (kinds.isEmpty || kinds.contains kind) = true ↔ (kinds ≠ [] → kind ∈ kinds) := by
  cases kinds <;> simp

theorem anyNumber_iff {given : Option Nat} {found : Nat} :
    given.all (found == ·) = true ↔ ∀ n, given = some n → found = n := by
  cases given <;> simp

section Report

variable {code : String} {report : Report} {expected : ExpectedError} {index : Nat}
  {failure : TestFailure}

theorem testReport_eq_ok_iff :
    rule.testReport code report expected index = .ok () ↔ report.Meets expected := by
  unfold testReport
  simp only [bind_eq_ok_iff, require_eq_ok_iff, anyKind_iff, anyNumber_iff, beq_iff_eq,
    exists_const]
  exact ⟨fun ⟨hmessage, hkind, hline, hcolumn⟩ => ⟨hmessage, hkind, hline, hcolumn⟩,
    fun h => ⟨h.message, h.kind, h.line, h.column⟩⟩

/-- **A report is tested** for its message, kind, line and column, in this order. -/
theorem testReport_eq_error_iff :
    rule.testReport code report expected index = .error failure ↔
      report.Misses rule.name code index expected failure := by
  unfold testReport
  simp only [bind_eq_error_iff, require_eq_ok_iff, require_eq_error_iff, anyKind_iff,
    anyNumber_iff, beq_iff_eq, exists_const]
  constructor
  · rintro (⟨hmessage, rfl⟩ | ⟨hmessage, ⟨hkind, rfl⟩ | ⟨hkind, ⟨hline, rfl⟩ |
      ⟨hline, hcolumn, rfl⟩⟩⟩)
    · exact .message hmessage
    · push Not at hkind
      exact .kind hmessage hkind.1 hkind.2
    · push Not at hline
      obtain ⟨line, hgiven, hline⟩ := hline
      rw [hgiven]
      exact .line hmessage hkind hgiven hline
    · push Not at hcolumn
      obtain ⟨column, hgiven, hcolumn⟩ := hcolumn
      rw [hgiven]
      exact .column hmessage hkind hline hgiven hcolumn
  · intro h
    cases h with
    | message hmessage => exact Or.inl ⟨hmessage, rfl⟩
    | kind hmessage hgiven hkind =>
      exact Or.inr ⟨hmessage, Or.inl ⟨fun h => hkind (h hgiven), rfl⟩⟩
    | line hmessage hkind hgiven hline =>
      refine Or.inr ⟨hmessage, Or.inr ⟨hkind, Or.inl ⟨fun h => hline (h _ hgiven), ?_⟩⟩⟩
      rw [hgiven]
      rfl
    | column hmessage hkind hline hgiven hcolumn =>
      refine Or.inr ⟨hmessage, Or.inr ⟨hkind, Or.inr ⟨hline, fun h => hcolumn (h _ hgiven), ?_⟩⟩⟩
      rw [hgiven]
      rfl

end Report

/-! ### One snippet -/

/-- The reports on a snippet are those on its program, in source order. -/
theorem reportsOn_eq_ok_iff {code : String} {reports : List Report} :
    rule.reportsOn grammar sourceType code = .ok reports ↔
      ∃ program, Program.ofText grammar sourceType code = .ok program ∧
        InSourceOrder (rule.check (analyze program)) reports := by
  rw [reportsOn_eq]
  cases Program.ofText grammar sourceType code with
  | error e => exact iff_of_false nofun fun ⟨_, h, _⟩ => nomatch h
  | ok program =>
    constructor
    · intro h
      exact ⟨program, rfl, inSourceOrder_iff.mpr (Except.ok.inj h).symm⟩
    · rintro ⟨_, hprogram, horder⟩
      cases hprogram
      exact congrArg Except.ok (inSourceOrder_iff.mp horder).symm

/-- There are no reports on what is no program. -/
theorem reportsOn_eq_error_iff {code : String} {failure : TestFailure} :
    rule.reportsOn grammar sourceType code = .error failure ↔
      ∃ e, Program.ofText grammar sourceType code = .error e ∧ .notParsed code e = failure := by
  rw [reportsOn_eq]
  cases Program.ofText grammar sourceType code with
  | error e =>
    constructor
    · intro h
      exact ⟨e, rfl, Except.error.inj h⟩
    · rintro ⟨_, he, rfl⟩
      cases he
      rfl
  | ok program => exact iff_of_false nofun fun ⟨_, h, _⟩ => nomatch h

variable (rule grammar sourceType)

/-- A valid snippet is as it should be: it is a program, and there are no reports on it. -/
def PassesValid (code : String) : Prop :=
  ∃ program, Program.ofText grammar sourceType code = .ok program ∧
    rule.check (analyze program) = []

/-- An invalid snippet is as it should be: it is a program, and the reports on it in source
order are the problems expected, one for one. -/
def PassesInvalid (snippet : InvalidSnippet) : Prop :=
  ∃ program reports, Program.ofText grammar sourceType snippet.code = .ok program ∧
    InSourceOrder (rule.check (analyze program)) reports ∧
    List.Forall₂ Report.Meets reports snippet.errors

/-- What is told of a valid snippet that is not as it should be. -/
inductive FailsValid (code : String) : TestFailure → Prop
  | notParsed {e : Error} (hprogram : Program.ofText grammar sourceType code = .error e) :
    FailsValid code (.notParsed code e)
  | reported {program : Program} {reports : List Report}
    (hprogram : Program.ofText grammar sourceType code = .ok program)
    (horder : InSourceOrder (rule.check (analyze program)) reports) (hreports : reports ≠ []) :
    FailsValid code (.notValid rule.name code reports)

/-- What is told of an invalid snippet that is not as it should be: that it is no program,
or else that the number of reports is wrong, or else what is wrong with the first report
that is not the problem expected. -/
inductive FailsInvalid (snippet : InvalidSnippet) : TestFailure → Prop
  | notParsed {e : Error} (hprogram : Program.ofText grammar sourceType snippet.code = .error e) :
    FailsInvalid snippet (.notParsed snippet.code e)
  | count {program : Program} {reports : List Report}
    (hprogram : Program.ofText grammar sourceType snippet.code = .ok program)
    (horder : InSourceOrder (rule.check (analyze program)) reports)
    (hcount : reports.length ≠ snippet.errors.length) :
    FailsInvalid snippet
      (.wrongCount rule.name snippet.code snippet.errors.length reports)
  | report {program : Program} {before after : List Report} {report : Report}
    {met others : List ExpectedError} {expected : ExpectedError} {failure : TestFailure}
    (hprogram : Program.ofText grammar sourceType snippet.code = .ok program)
    (horder : InSourceOrder (rule.check (analyze program)) (before ++ report :: after))
    (herrors : snippet.errors = met ++ expected :: others)
    (hbefore : List.Forall₂ Report.Meets before met)
    (hafter : after.length = others.length)
    (hreport : report.Misses rule.name snippet.code before.length expected failure) :
    FailsInvalid snippet failure

variable {rule grammar sourceType}

theorem testValid_eq_ok_iff {code : String} :
    rule.testValid grammar sourceType code = .ok () ↔
      rule.PassesValid grammar sourceType code := by
  unfold testValid PassesValid
  simp only [bind_eq_ok_iff, reportsOn_eq_ok_iff, require_eq_ok_iff, List.isEmpty_iff]
  constructor
  · rintro ⟨_, ⟨program, hprogram, horder⟩, rfl⟩
    exact ⟨program, hprogram, inSourceOrder_nil_iff.mp horder⟩
  · rintro ⟨program, hprogram, hnone⟩
    exact ⟨[], ⟨program, hprogram, inSourceOrder_nil_iff.mpr hnone⟩, rfl⟩

theorem testValid_eq_error_iff {code : String} {failure : TestFailure} :
    rule.testValid grammar sourceType code = .error failure ↔
      rule.FailsValid grammar sourceType code failure := by
  unfold testValid
  simp only [bind_eq_error_iff, reportsOn_eq_ok_iff, reportsOn_eq_error_iff,
    require_eq_error_iff, List.isEmpty_iff]
  constructor
  · rintro (⟨e, hprogram, rfl⟩ | ⟨reports, ⟨program, hprogram, horder⟩, hreports, rfl⟩)
    · exact .notParsed hprogram
    · exact .reported hprogram horder hreports
  · intro h
    cases h with
    | notParsed hprogram => exact Or.inl ⟨_, hprogram, rfl⟩
    | reported hprogram horder hreports =>
      exact Or.inr ⟨_, ⟨_, hprogram, horder⟩, hreports, rfl⟩

/-- The reports on an invalid snippet pass when each is the problem expected. -/
theorem testReports_eq_ok_iff {code : String} {reports : List Report}
    {errors : List ExpectedError} (hlength : reports.length = errors.length) :
    ((reports.zip errors).zipIdx.forM fun ((report, expected), index) =>
        rule.testReport code report expected index) = .ok () ↔
      List.Forall₂ Report.Meets reports errors := by
  rw [forM_eq_ok_iff, List.forall₂_iff_zip]
  constructor
  · intro h
    refine ⟨hlength, fun {report expected} hpair => ?_⟩
    obtain ⟨index, hindex⟩ := List.getElem?_of_mem hpair
    exact testReport_eq_ok_iff.mp (h _ (List.mk_mem_zipIdx_iff_getElem?.mpr hindex))
  · rintro ⟨_, h⟩ ⟨⟨report, expected⟩, index⟩ hpair
    exact testReport_eq_ok_iff.mpr (h (List.fst_mem_of_mem_zipIdx hpair))

/-- The reports on an invalid snippet tell the first that is not the problem expected. -/
theorem testReports_eq_error_iff {code : String} {reports : List Report}
    {errors : List ExpectedError} (hlength : reports.length = errors.length)
    {failure : TestFailure} :
    ((reports.zip errors).zipIdx.forM fun ((report, expected), index) =>
        rule.testReport code report expected index) = .error failure ↔
      ∃ before report after met expected others, reports = before ++ report :: after ∧
        errors = met ++ expected :: others ∧ List.Forall₂ Report.Meets before met ∧
        after.length = others.length ∧
        report.Misses rule.name code before.length expected failure := by
  rw [forM_eq_error_iff]
  constructor
  · rintro ⟨passed, ⟨⟨report, expected⟩, index⟩, rest, hsplit, hpassed, hfailure⟩
    -- A split of the numbered pairs is a split of the reports and one of the problems.
    obtain ⟨pairs, _, hpairs, rfl, hrest⟩ := List.zipIdx_eq_append_iff.mp hsplit
    obtain ⟨_, _, rfl, hhead, rfl⟩ := List.zipIdx_eq_cons_iff.mp hrest.symm
    obtain ⟨rfl, rfl⟩ := Prod.mk.inj hhead
    obtain ⟨before, _, met, _, hbefore, rfl, rfl, rfl, hzip⟩ := List.zip_eq_append_iff.mp hpairs
    obtain ⟨after, others, rfl, rfl, rfl⟩ := List.zip_eq_cons_iff.mp hzip.symm
    refine ⟨before, report, after, met, expected, others, rfl, rfl,
      (testReports_eq_ok_iff hbefore).mp (forM_eq_ok_iff.mpr hpassed), ?_, ?_⟩
    · simp only [List.length_append, List.length_cons] at hlength
      omega
    · have hindex : 0 + (before.zip met).length = before.length := by
        rw [List.length_zip]
        omega
      rw [hindex] at hfailure
      exact testReport_eq_error_iff.mp hfailure
  · rintro ⟨before, report, after, met, expected, others, rfl, rfl, hbefore, _, hfailure⟩
    have hlength := hbefore.length_eq
    refine ⟨(before.zip met).zipIdx, ((report, expected), before.length),
      (after.zip others).zipIdx (before.length + 1), ?_,
      forM_eq_ok_iff.mp ((testReports_eq_ok_iff hlength).mpr hbefore),
      testReport_eq_error_iff.mpr hfailure⟩
    rw [List.zip_append hlength, List.zip_cons_cons, List.zipIdx_append, List.zipIdx_cons,
      List.length_zip, hlength, Nat.min_self, Nat.zero_add]

theorem testInvalid_eq_ok_iff {snippet : InvalidSnippet} :
    rule.testInvalid grammar sourceType snippet = .ok () ↔
      rule.PassesInvalid grammar sourceType snippet := by
  unfold testInvalid PassesInvalid
  simp only [bind_eq_ok_iff, reportsOn_eq_ok_iff, require_eq_ok_iff, exists_const, beq_iff_eq]
  constructor
  · rintro ⟨reports, ⟨program, hprogram, horder⟩, hlength, hreports⟩
    exact ⟨program, reports, hprogram, horder, (testReports_eq_ok_iff hlength).mp hreports⟩
  · rintro ⟨program, reports, hprogram, horder, hreports⟩
    exact ⟨reports, ⟨program, hprogram, horder⟩, hreports.length_eq,
      (testReports_eq_ok_iff hreports.length_eq).mpr hreports⟩

theorem testInvalid_eq_error_iff {snippet : InvalidSnippet} {failure : TestFailure} :
    rule.testInvalid grammar sourceType snippet = .error failure ↔
      rule.FailsInvalid grammar sourceType snippet failure := by
  unfold testInvalid
  simp only [bind_eq_error_iff, reportsOn_eq_ok_iff, reportsOn_eq_error_iff, require_eq_ok_iff,
    require_eq_error_iff, exists_const, beq_iff_eq]
  constructor
  · rintro (⟨e, hprogram, rfl⟩ | ⟨reports, ⟨program, hprogram, horder⟩, ⟨hlength, rfl⟩ |
      ⟨hlength, hfailure⟩⟩)
    · exact .notParsed hprogram
    · exact .count hprogram horder hlength
    · obtain ⟨before, report, after, met, expected, others, rfl, herrors, hbefore, hafter,
        hreport⟩ := (testReports_eq_error_iff hlength).mp hfailure
      exact .report hprogram horder herrors hbefore hafter hreport
  · intro h
    cases h with
    | notParsed hprogram => exact Or.inl ⟨_, hprogram, rfl⟩
    | count hprogram horder hlength =>
      exact Or.inr ⟨_, ⟨_, hprogram, horder⟩, Or.inl ⟨hlength, rfl⟩⟩
    | @report program before after report met others expected failure hprogram horder herrors
        hbefore hafter hreport =>
      have hlength : (before ++ report :: after).length = snippet.errors.length := by
        rw [herrors, List.length_append, List.length_append, List.length_cons, List.length_cons,
          hbefore.length_eq, hafter]
      exact Or.inr ⟨_, ⟨program, hprogram, horder⟩, Or.inr ⟨hlength,
        (testReports_eq_error_iff hlength).mpr ⟨before, report, after, met, expected, others, rfl,
          herrors, hbefore, hafter, hreport⟩⟩⟩

/-! ### The whole test -/

/-- What is told of a test in which something is not as it should be: what is wrong with the
first valid snippet that is not as it should be, or if there is none, with the first such
invalid snippet. -/
inductive FailsFirst (rule : Rule) (grammar : Grammar) (sourceType : SourceType)
    (valid : List String) (invalid : List InvalidSnippet) : TestFailure → Prop
  | valid {before after : List String} {code : String} {failure : TestFailure}
    (hvalid : valid = before ++ code :: after)
    (hbefore : ∀ c ∈ before, rule.PassesValid grammar sourceType c)
    (hcode : rule.FailsValid grammar sourceType code failure) :
    FailsFirst rule grammar sourceType valid invalid failure
  | invalid {before after : List InvalidSnippet} {snippet : InvalidSnippet}
    {failure : TestFailure} (hvalid : ∀ c ∈ valid, rule.PassesValid grammar sourceType c)
    (hinvalid : invalid = before ++ snippet :: after)
    (hbefore : ∀ s ∈ before, rule.PassesInvalid grammar sourceType s)
    (hsnippet : rule.FailsInvalid grammar sourceType snippet failure) :
    FailsFirst rule grammar sourceType valid invalid failure

/-- **A test passes exactly when every snippet is as it should be**: each valid one is a
program without reports, and on each invalid one the reports in source order are the problems
expected.  Otherwise it tells of the first snippet that is not, the valid ones first, and of
the first thing wrong with that one. -/
theorem test_outcome (rule : Rule) (grammar : Grammar) (sourceType : SourceType)
    (valid : List String) (invalid : List InvalidSnippet) :
    (rule.test grammar sourceType valid invalid = .ok () ↔
      (∀ code ∈ valid, rule.PassesValid grammar sourceType code) ∧
        ∀ snippet ∈ invalid, rule.PassesInvalid grammar sourceType snippet) ∧
    ∀ failure, rule.test grammar sourceType valid invalid = .error failure ↔
      rule.FailsFirst grammar sourceType valid invalid failure := by
  unfold test
  constructor
  · simp only [bind_eq_ok_iff, forM_eq_ok_iff, testValid_eq_ok_iff, testInvalid_eq_ok_iff,
      exists_const]
  · intro failure
    simp only [bind_eq_error_iff, forM_eq_ok_iff, forM_eq_error_iff, testValid_eq_ok_iff,
      testInvalid_eq_ok_iff, testValid_eq_error_iff, testInvalid_eq_error_iff, exists_const]
    constructor
    · rintro (⟨before, code, after, hsplit, hbefore, hcode⟩ |
        ⟨hvalid, before, snippet, after, hsplit, hbefore, hsnippet⟩)
      · exact .valid hsplit hbefore hcode
      · exact .invalid hvalid hsplit hbefore hsnippet
    · intro h
      cases h with
      | valid hsplit hbefore hcode => exact Or.inl ⟨_, _, _, hsplit, hbefore, hcode⟩
      | invalid hvalid hsplit hbefore hsnippet =>
        exact Or.inr ⟨hvalid, _, _, _, hsplit, hbefore, hsnippet⟩

end Rule

end ScopeLint
