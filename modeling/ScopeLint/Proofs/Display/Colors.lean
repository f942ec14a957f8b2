import ScopeLint.Proofs.Display.Rows

/-! # Colors and the ends of rows

Leaving the escapes out of what a lawful painter paints gives the text back
(`Painter.Lawful.eraseFrom_paint`).  A row is trimmed after its cells are styled.  With
colors it ends in the escape behind its rule, even where no rule is named, and then nothing
is trimmed; without colors the white space at the end goes.  So the two showings of a file
are the same lines but for white space at their ends, and they are the same exactly when
every rule is named and its name ends in a character that shows (`colors_keep_blanks`).  The
row of a failure names no rule, and it keeps its last gap in colors only
(`failure_keeps_blanks`).
-/

namespace ScopeLint

namespace Display

open Painter (erase eraseFrom eraseFrom_text)
open WhiteSpace (trimEnd Blank isWhiteSpace)

/-! ### Rows with colors -/

/-- The row of a problem with nothing lost from its end. -/
def wholeRow (locationWidth messageWidth : Nat) (d : Diagnostic) : List Char :=
  beforeRule locationWidth messageWidth d ++ ruleName d

/-- What the row of a problem loses from its end. -/
def lostBlanks (locationWidth messageWidth : Nat) (d : Diagnostic) : List Char :=
  (wholeRow locationWidth messageWidth d).rtakeWhile isWhiteSpace

section Row

variable {locationWidth messageWidth : Nat} {d : Diagnostic}

theorem row_append_lostBlanks (locationWidth messageWidth : Nat) (d : Diagnostic) :
    plainRow locationWidth messageWidth d ++ lostBlanks locationWidth messageWidth d =
      wholeRow locationWidth messageWidth d := by
  exact List.rdropWhile_append_rtakeWhile

theorem blank_lostBlanks (locationWidth messageWidth : Nat) (d : Diagnostic) :
    Blank (lostBlanks locationWidth messageWidth d) :=
  fun _ => List.mem_rtakeWhile_imp

/-- A row loses nothing exactly when its rule is named and the name ends in a character that
shows. -/
theorem lostBlanks_eq_nil_iff :
    lostBlanks locationWidth messageWidth d = [] ↔
      ∃ c, (ruleName d).getLast? = some c ∧ isWhiteSpace c = false := by
  unfold lostBlanks wholeRow
  rcases List.eq_nil_or_concat (ruleName d) with hnone | ⟨name, c, hname⟩
  · -- Without a rule the row ends in the gap before it.
    have hgap : beforeRule locationWidth messageWidth d ++ [] =
        beforeMessage locationWidth d ++ pad messageWidth d.message.toList ++ [' '] ++ [' '] := by
      simp only [beforeRule, gap, List.append_nil, List.append_assoc, List.cons_append,
        List.nil_append]
    rw [hnone, hgap, List.rtakeWhile_concat_pos _ _ _ (by decide)]
    exact iff_of_false (by simp) (by simp)
  · rw [hname, List.concat_eq_append, ← List.append_assoc, List.rtakeWhile_concat,
      List.getLast?_append]
    cases h : isWhiteSpace c with
    | true => simp [h]
    | false => simp [h]

theorem escape_not_mem_location (d : Diagnostic) : '\x1b' ∉ location d := by
  intro h
  rcases of_mem_location h with h | h
  · exact absurd h (by decide)
  · exact absurd h (by decide)

theorem escape_not_mem_pad {width : Nat} {cell : List Char} (h : '\x1b' ∉ cell) :
    '\x1b' ∉ pad width cell := by
  intro hpad
  rcases of_mem_pad hpad with hpad | hpad
  · exact h hpad
  · exact absurd hpad (by decide)

variable {painter : Painter} (hpainter : painter.Lawful)
include hpainter

/-- With colors a row ends in an escape, so nothing is trimmed. -/
theorem row_colored (locationWidth messageWidth : Nat) (d : Diagnostic) :
    row painter .colored locationWidth messageWidth d =
      gap ++ painter.paint Theme.colored.location (pad locationWidth (location d)) ++
        gap ++ severityWord painter .colored d ++
        gap ++ pad messageWidth d.message.toList ++
        gap ++ painter.paint Theme.colored.rule (ruleName d) := by
  have hrule : Theme.colored.rule.attributes ≠ [] := by decide
  obtain ⟨front, hfront⟩ := hpainter.exists_paint_concat hrule (ruleName d)
  unfold row
  rw [← ruleName, hfront, ← List.append_assoc]
  exact WhiteSpace.trimEnd_concat (by decide)

omit hpainter in
theorem exists_severityWord (painter : Painter) (theme : Theme) (d : Diagnostic) :
    ∃ style, severityWord painter theme d = painter.paint style (pad 5 (severityName d)) := by
  unfold severityWord severityName
  split
  · exact ⟨theme.error, rfl⟩
  · exact ⟨theme.warn, rfl⟩

/-- **Leaving the escapes out of a row with colors gives the whole row.** -/
theorem eraseFrom_row (hmessage : '\x1b' ∉ d.message.toList) (hrule : '\x1b' ∉ ruleName d)
    (rest : List Char) :
    eraseFrom false (row painter .colored locationWidth messageWidth d ++ rest) =
      wholeRow locationWidth messageWidth d ++ eraseFrom false rest := by
  have hgap : '\x1b' ∉ gap := by decide
  have hlocation : '\x1b' ∉ pad locationWidth (location d) :=
    escape_not_mem_pad (escape_not_mem_location d)
  have hname : '\x1b' ∉ pad 5 (severityName d) := by
    refine escape_not_mem_pad ?_
    unfold severityName
    split <;> decide
  obtain ⟨style, hword⟩ := exists_severityWord painter .colored d
  rw [row_colored hpainter, hword]
  simp only [wholeRow, beforeRule, beforeMessage, beforeSeverity, List.append_assoc]
  rw [eraseFrom_text hgap, hpainter.eraseFrom_paint _ hlocation, eraseFrom_text hgap,
    hpainter.eraseFrom_paint _ hname, eraseFrom_text hgap,
    eraseFrom_text (escape_not_mem_pad hmessage), eraseFrom_text hgap,
    hpainter.eraseFrom_paint _ hrule]

end Row

/-! ### Files with colors -/

/-- Nothing that is shown of a file has an escape of its own. -/
def EscapeFree (report : FileReport) : Prop :=
  '\x1b' ∉ report.path.toList ∧
    ∀ d ∈ report.messages, '\x1b' ∉ d.message.toList ∧ '\x1b' ∉ ruleName d

/-- Lines, each with what stands behind it up to its line break, and the same lines alone. -/
theorem flatMap_lines_eq_iff {lines : List (List Char × List Char)} :
    lines.flatMap (fun line => line.1 ++ line.2 ++ ['\n']) =
        lines.flatMap (fun line => line.1 ++ ['\n']) ↔
      ∀ line ∈ lines, line.2 = [] := by
  have hlength : ∀ lines : List (List Char × List Char),
      (lines.flatMap fun line => line.1 ++ ['\n']).length ≤
        (lines.flatMap fun line => line.1 ++ line.2 ++ ['\n']).length := by
    intro lines
    induction lines with
    | nil => exact Nat.le_refl _
    | cons line lines ih =>
      simp only [List.flatMap_cons, List.length_append]
      omega
  induction lines with
  | nil => exact iff_of_true rfl nofun
  | cons line lines ih =>
    rw [List.forall_mem_cons, List.flatMap_cons, List.flatMap_cons]
    constructor
    · intro h
      have htail := hlength lines
      have hsame := congrArg List.length h
      simp only [List.length_append] at hsame
      have hnone : line.2 = [] := List.eq_nil_of_length_eq_zero (by omega)
      rw [hnone, List.append_nil] at h
      exact ⟨hnone, ih.mp (List.append_cancel_left h)⟩
    · rintro ⟨hnone, hrest⟩
      rw [hnone, List.append_nil, ih.mpr hrest]

/-- The lines of a file, each with what it loses from its end without colors. -/
def linesWithBlanks (report : FileReport) : List (List Char × List Char) :=
  if report.isClean then []
  else
    (report.path.toList, []) :: report.messages.map fun d =>
      (plainRow (locationWidth report.messages) (messageWidth report.messages) d,
        lostBlanks (locationWidth report.messages) (messageWidth report.messages) d)

theorem blank_linesWithBlanks {report : FileReport} {line : List Char × List Char}
    (h : line ∈ linesWithBlanks report) : Blank line.2 := by
  unfold linesWithBlanks at h
  split at h
  · cases h
  · rcases List.mem_cons.mp h with rfl | h
    · exact List.forall_mem_nil _
    · obtain ⟨d, _, rfl⟩ := List.mem_map.mp h
      dsimp only
      exact blank_lostBlanks _ _ d

theorem linesWithBlanks_nil_iff {report : FileReport} :
    (∀ line ∈ linesWithBlanks report, line.2 = []) ↔
      ∀ d ∈ report.messages, ∃ c, (ruleName d).getLast? = some c ∧ isWhiteSpace c = false := by
  unfold linesWithBlanks
  split
  · rename_i hclean
    have hnone : report.messages = [] := List.isEmpty_iff.mp hclean
    simp only [hnone, List.not_mem_nil, false_imp_iff, implies_true]
  · simp only [List.forall_mem_cons, List.forall_mem_map, true_and, lostBlanks_eq_nil_iff]

theorem eraseFrom_newline (rest : List Char) :
    eraseFrom false (['\n'] ++ rest) = ['\n'] ++ eraseFrom false rest :=
  eraseFrom_text (by decide) rest

section Files

variable {painter : Painter} (hpainter : painter.Lawful) {report : FileReport}
include hpainter

theorem eraseFrom_rows {locationWidth messageWidth : Nat} {ds : List Diagnostic}
    (h : ∀ d ∈ ds, '\x1b' ∉ d.message.toList ∧ '\x1b' ∉ ruleName d) :
    eraseFrom false
        (ds.flatMap fun d => row painter .colored locationWidth messageWidth d ++ ['\n']) =
      ds.flatMap fun d => plainRow locationWidth messageWidth d ++
        lostBlanks locationWidth messageWidth d ++ ['\n'] := by
  induction ds with
  | nil => rfl
  | cons d ds ih =>
    obtain ⟨⟨hmessage, hrule⟩, hrest⟩ := List.forall_mem_cons.mp h
    rw [List.flatMap_cons, List.flatMap_cons, List.append_assoc,
      eraseFrom_row hpainter hmessage hrule, eraseFrom_newline, ih hrest, row_append_lostBlanks,
      List.append_assoc]

theorem renderFile?_plain (hfits : Fits report) : renderFile? painter .plain report =
    some (String.ofList ((linesWithBlanks report).flatMap fun line => line.1 ++ ['\n'])) := by
  have hrows : row painter .plain (locationWidth report.messages) (messageWidth report.messages) =
      plainRow (locationWidth report.messages) (messageWidth report.messages) :=
    funext (row_plain hpainter _ _)
  have hpath : painter.paint Theme.plain.path report.path.toList = report.path.toList :=
    hpainter.paint_plain _
  rw [renderFile?, fileLines?_eq hfits, linesWithBlanks, hrows, hpath]
  split
  · rfl
  · simp only [Option.map_some, List.flatMap_cons, List.flatMap_map]

theorem exists_renderFile?_colored (hfits : Fits report) (h : EscapeFree report) :
    ∃ text, renderFile? painter .colored report = some text ∧
      (erase text).toList =
        (linesWithBlanks report).flatMap fun line => line.1 ++ line.2 ++ ['\n'] := by
  obtain ⟨hpath, hmessages⟩ := h
  rw [renderFile?, fileLines?_eq hfits, Option.map_some]
  refine ⟨_, rfl, ?_⟩
  rw [erase, String.toList_ofList, String.toList_ofList, linesWithBlanks]
  split
  · rw [List.flatMap_nil, List.flatMap_nil, eraseFrom]
  · rw [List.flatMap_cons, List.flatMap_cons, List.append_assoc,
      hpainter.eraseFrom_paint _ hpath, eraseFrom_newline, List.flatMap_map, List.flatMap_map,
      eraseFrom_rows hpainter hmessages, List.append_nil, List.append_assoc]

end Files

/-! ### What colors change -/

theorem escape_not_mem_count {n : Nat} {word : String} (h : '\x1b' ∉ word.toList) :
    '\x1b' ∉ (count n word).toList := by
  have hspaced : '\x1b' ∉ (toString n ++ " " ++ word).toList := by
    simp only [String.toList_append, List.mem_append, not_or]
    exact ⟨⟨not_mem_toString (by decide) n, by decide⟩, h⟩
  unfold count
  split
  · exact hspaced
  · show '\x1b' ∉ (toString n ++ " " ++ word ++ "s").toList
    rw [String.toList_append, List.mem_append, not_or]
    exact ⟨hspaced, by decide⟩

/-- The line that closes a run is the same with colors but for escapes. -/
theorem erase_renderSummary {painter : Painter} (hpainter : painter.Lawful) (s : Summary) :
    erase (renderSummary painter .colored s) = renderSummary painter .plain s := by
  have hplain : ∀ text : List Char, painter.paint ⟨[]⟩ text = text := hpainter.paint_plain
  unfold renderSummary
  split
  · refine (hpainter.erase_paint _ ?_).trans (congrArg String.ofList (hplain _).symm)
    rw [String.toList_append, List.mem_append, not_or]
    exact ⟨by decide, escape_not_mem_count (by decide)⟩
  · dsimp only
    have htext : '\x1b' ∉ ("✖ " ++ count s.problems "problem" ++ " (" ++
        count s.errors "error" ++ ", " ++ count s.warnings "warning" ++ ")").toList := by
      simp only [String.toList_append, List.mem_append, not_or]
      exact ⟨⟨⟨⟨⟨⟨by decide, escape_not_mem_count (by decide)⟩, by decide⟩,
        escape_not_mem_count (by decide)⟩, by decide⟩, escape_not_mem_count (by decide)⟩,
        by decide⟩
    generalize "✖ " ++ count s.problems "problem" ++ " (" ++ count s.errors "error" ++ ", " ++
      count s.warnings "warning" ++ ")" = text at htext ⊢
    have hstyle : (if s.errors > 0 then Theme.plain.error else Theme.plain.warn) = ⟨[]⟩ :=
      ite_self _
    rw [hstyle, hplain]
    exact hpainter.erase_paint _ htext

/-- **Colors add escapes, and keep white space at the ends of rows.**  With and without
colors a file is shown or it is not.  Where it is, and nothing that is shown of it has an
escape of its own, the file with colors and the file without them are the same lines, but for
escapes and for white space at the ends of the lines with colors.  They are the same but for
escapes alone exactly when each problem has a rule whose name ends in a character that shows.
The line that closes a run is always the same but for escapes. -/
theorem colors_keep_blanks {painter : Painter} (hpainter : painter.Lawful) (report : FileReport)
    (hreport : EscapeFree report) (s : Summary) :
    (renderFile? painter .colored report = none ↔ renderFile? painter .plain report = none) ∧
    (∀ plain, renderFile? painter .plain report = some plain →
      ∃ colored, renderFile? painter .colored report = some colored ∧
        (∃ lines : List (List Char × List Char), (∀ line ∈ lines, Blank line.2) ∧
          plain.toList = lines.flatMap (fun line => line.1 ++ ['\n']) ∧
          (erase colored).toList = lines.flatMap fun line => line.1 ++ line.2 ++ ['\n']) ∧
        (erase colored = plain ↔
          ∀ d ∈ report.messages, ∃ c, (ruleName d).getLast? = some c ∧ isWhiteSpace c = false)) ∧
    erase (renderSummary painter .colored s) = renderSummary painter .plain s := by
  refine ⟨by rw [renderFile?_eq_none_iff, renderFile?_eq_none_iff], fun plain hplain => ?_,
    erase_renderSummary hpainter s⟩
  have hfits : Fits report := by
    by_contra hnot
    rw [renderFile?_eq_none_iff.mpr hnot] at hplain
    cases hplain
  have hlines : plain.toList =
      (linesWithBlanks report).flatMap fun line => line.1 ++ ['\n'] := by
    rw [renderFile?_plain hpainter hfits, Option.some.injEq] at hplain
    rw [← hplain, String.toList_ofList]
  obtain ⟨colored, hcolored, herased⟩ := exists_renderFile?_colored hpainter hfits hreport
  refine ⟨colored, hcolored, ⟨linesWithBlanks report, fun line => blank_linesWithBlanks, hlines,
    herased⟩, ?_⟩
  rw [← linesWithBlanks_nil_iff, ← flatMap_lines_eq_iff, ← herased, ← hlines, String.toList_inj]

/-! ### A failure -/

namespace FailedFile

/-- A file that is no program. -/
def report : FileReport where
  path := "a.js"
  messages := [.failure "Parsing error: Unexpected token )" 1 5]

/-- What is shown of it without colors. -/
def plain : String := "a.js\n  1:5  error  Parsing error: Unexpected token )\n"

theorem escapeFree : EscapeFree report := ⟨by decide +kernel, by decide +kernel⟩

end FailedFile

/-- The theorem applies to the file of a failure. -/
theorem colors_keep_blanks_failure :
    Painter.terminal.Lawful ∧ EscapeFree FailedFile.report ∧
      renderFile? .terminal .plain FailedFile.report = some FailedFile.plain ∧
      ∃ colored, renderFile? .terminal .colored FailedFile.report = some colored ∧
        (erase colored = FailedFile.plain ↔
          ∀ d ∈ FailedFile.report.messages,
            ∃ c, (ruleName d).getLast? = some c ∧ isWhiteSpace c = false) := by
  have hplain : renderFile? .terminal .plain FailedFile.report = some FailedFile.plain := by
    decide +kernel
  obtain ⟨_, hshown, _⟩ := colors_keep_blanks Painter.terminal_lawful FailedFile.report
    FailedFile.escapeFree (Summary.ofReports [FailedFile.report])
  obtain ⟨colored, hcolored, _, hsame⟩ := hshown _ hplain
  exact ⟨Painter.terminal_lawful, FailedFile.escapeFree, hplain, colored, hcolored, hsame⟩

/-- **A failure is shown with more than escapes in colors**, whatever the painter: its row
keeps the last gap. -/
theorem failure_keeps_blanks :
    EscapeFree FailedFile.report ∧ Painter.terminal.Lawful ∧
      ∀ painter : Painter, painter.Lawful →
        renderFile? painter .plain FailedFile.report = some FailedFile.plain ∧
        ∃ colored, renderFile? painter .colored FailedFile.report = some colored ∧
          erase colored = "a.js\n  1:5  error  Parsing error: Unexpected token )  \n" ∧
          erase colored ≠ FailedFile.plain := by
  have hfits : Fits FailedFile.report := ⟨by decide +kernel, by decide +kernel⟩
  have hplain : String.ofList
      ((linesWithBlanks FailedFile.report).flatMap fun line => line.1 ++ ['\n']) =
        FailedFile.plain := by decide +kernel
  have hblanks : (linesWithBlanks FailedFile.report).flatMap
      (fun line => line.1 ++ line.2 ++ ['\n']) =
        "a.js\n  1:5  error  Parsing error: Unexpected token )  \n".toList := by decide +kernel
  refine ⟨FailedFile.escapeFree, Painter.terminal_lawful, fun painter hpainter => ⟨?_, ?_⟩⟩
  · rw [renderFile?_plain hpainter hfits, hplain]
  · obtain ⟨colored, hcolored, herased⟩ :=
      exists_renderFile?_colored hpainter hfits FailedFile.escapeFree
    have htext := String.toList_inj.mp (herased.trans hblanks)
    exact ⟨colored, hcolored, htext, by rw [htext]; decide +kernel⟩

end Display

end ScopeLint
