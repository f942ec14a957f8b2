import Mathlib.Data.List.Forall2
import Mathlib.Data.Nat.Digits.Defs
import ScopeLint.Display.Problems
import ScopeLint.Proofs.Display.Painters
import ScopeLint.Proofs.Text.WhiteSpace

/-! # The rows of a file stand in columns

A column is as wide as its widest cell is long in octets, and a cell is filled up to that
width in characters.  A text has no more characters than octets, so every cell fits and the
cell after it starts at one column in all rows (`length_pad`).  A row then loses the white
space at its end.  That shifts nothing, and it takes nothing from a cell that shows
something: a part of a row that ends in a character that shows stays whole
(`WhiteSpace.prefix_trimEnd`).

The width of a column has a limit, and a file with a message that is longer is not shown at
all (`long_message_shows_nothing`).  Places never come near that limit (`fits_iff`).
-/

namespace ScopeLint

namespace Utf8

theorem encodeChar_ne_nil (c : Char) : encodeChar c ≠ [] := by
  simp only [encodeChar]
  split
  · simp
  · split
    · simp
    · split <;> simp

/-- A text has no more characters than octets. -/
theorem length_le_length_encode (text : List Char) : text.length ≤ (encode text).length := by
  induction text with
  | nil => exact Nat.le_refl _
  | cons c text ih =>
    have hc := List.length_pos_of_ne_nil (encodeChar_ne_nil c)
    rw [encode, List.flatMap_cons, List.length_append, List.length_cons]
    rw [encode] at ih
    omega

/-- An ASCII text has as many characters as octets. -/
theorem length_encode_of_ascii {text : List Char} (h : ∀ c ∈ text, c.toNat < 0x80) :
    (encode text).length = text.length := by
  induction text with
  | nil => rfl
  | cons c text ih =>
    obtain ⟨hc, htext⟩ := List.forall_mem_cons.mp h
    have hone : encodeChar c = [octet c.toNat] := if_pos hc
    rw [encode, List.flatMap_cons, hone, List.length_append, ← encode, ih htext]
    simp [Nat.add_comm]

end Utf8

namespace Display

open WhiteSpace (trimEnd Blank isWhiteSpace)

/-! ### Cells filled up to one width -/

theorem foldl_max_le_iff {widths : List Nat} {start bound : Nat} :
    widths.foldl max start ≤ bound ↔ start ≤ bound ∧ ∀ n ∈ widths, n ≤ bound := by
  induction widths generalizing start with
  | nil => simp
  | cons width widths ih => rw [List.foldl_cons, ih, Nat.max_le, List.forall_mem_cons, and_assoc]

theorem columnWidth_le_iff {cells : List (List Char)} {bound : Nat} :
    columnWidth cells ≤ bound ↔ ∀ cell ∈ cells, (Utf8.encode cell).length ≤ bound := by
  rw [columnWidth, foldl_max_le_iff, List.forall_mem_map, and_iff_right (Nat.zero_le bound)]

/-- Every cell fits into its column. -/
theorem length_le_columnWidth {cells : List (List Char)} {cell : List Char} (h : cell ∈ cells) :
    cell.length ≤ columnWidth cells :=
  Nat.le_trans (Utf8.length_le_length_encode cell)
    (columnWidth_le_iff.mp (Nat.le_refl _) cell h)

/-- A cell that fits is as long as its column is wide. -/
theorem length_pad {width : Nat} {cell : List Char} (h : cell.length ≤ width) :
    (pad width cell).length = width := by
  rw [pad, List.length_append, List.length_replicate]
  omega

/-! ### One row -/

/-- The word for the severity of a problem. -/
def severityName (d : Diagnostic) : List Char :=
  if d.isError then "error".toList else "warn".toList

/-- The name of the rule that found a problem; empty for a failure. -/
def ruleName (d : Diagnostic) : List Char := (d.rule.getD "").toList

/-- The columns of a file at which its rows have severity, message and rule. -/
structure Columns where
  severity : Nat
  message : Nat
  rule : Nat

/-- A cell stands in a row at a column. -/
def StandsAt (cell : List Char) (column : Nat) (row : List Char) : Prop :=
  cell <+: row.drop column

theorem standsAt_of_append {before cell row : List Char} {column : Nat}
    (h : before ++ cell <+: row) (hcolumn : before.length = column) :
    StandsAt cell column row := by
  obtain ⟨rest, rfl⟩ := h
  subst hcolumn
  rw [StandsAt, List.append_assoc, List.drop_left]
  exact List.prefix_append _ _

/-- **The row of a problem shows it at the columns of its file**, with two characters or more
between two cells.  Location, severity and the start of the rule show, so they stand in the
row; what the message ends in may be lost, but only if it does not show and nothing stands
behind it. -/
structure Shows (columns : Columns) (d : Diagnostic) (row : List Char) : Prop where
  location : StandsAt (location d) 2 row
  location_ends : 2 + (Display.location d).length + 2 ≤ columns.severity
  severity : StandsAt (severityName d) columns.severity row
  severity_ends : columns.severity + (severityName d).length + 2 ≤ columns.message
  message : ∃ blanks, Blank blanks ∧ StandsAt d.message.toList columns.message (row ++ blanks)
  message_whole : ¬ Blank (ruleName d) → StandsAt d.message.toList columns.message row
  message_ends : columns.message + d.message.toList.length + 2 ≤ columns.rule
  rule : ¬ Blank (ruleName d) → row.drop columns.rule = trimEnd (ruleName d)

/-- What stands in a row before the severity. -/
def beforeSeverity (locationWidth : Nat) (d : Diagnostic) : List Char :=
  gap ++ pad locationWidth (location d) ++ gap

/-- What stands in a row before the message. -/
def beforeMessage (locationWidth : Nat) (d : Diagnostic) : List Char :=
  beforeSeverity locationWidth d ++ pad 5 (severityName d) ++ gap

/-- What stands in a row before the rule. -/
def beforeRule (locationWidth messageWidth : Nat) (d : Diagnostic) : List Char :=
  beforeMessage locationWidth d ++ pad messageWidth d.message.toList ++ gap

/-- The columns of cells of some widths. -/
def columnsOf (locationWidth messageWidth : Nat) : Columns where
  severity := 2 + locationWidth + 2
  message := 2 + locationWidth + 2 + 5 + 2
  rule := 2 + locationWidth + 2 + 5 + 2 + messageWidth + 2

/-- The row of a problem without styles. -/
def plainRow (locationWidth messageWidth : Nat) (d : Diagnostic) : List Char :=
  trimEnd (beforeRule locationWidth messageWidth d ++ ruleName d)

section Row

variable {locationWidth messageWidth : Nat} {d : Diagnostic}

theorem row_plain {painter : Painter} (hpainter : painter.Lawful)
    (locationWidth messageWidth : Nat) (d : Diagnostic) :
    row painter .plain locationWidth messageWidth d = plainRow locationWidth messageWidth d := by
  have hword : severityWord painter .plain d = pad 5 (severityName d) := by
    unfold severityWord severityName
    split <;> exact hpainter.paint_plain _
  have hlocation := hpainter.paint_plain (pad locationWidth (location d))
  have hrule := hpainter.paint_plain (d.rule.getD "").toList
  unfold row
  rw [hword, Theme.plain, hlocation, hrule]
  rfl

theorem severityName_length (d : Diagnostic) :
    (severityName d).length = 5 ∨ (severityName d).length = 4 := by
  unfold severityName
  split
  · exact Or.inl rfl
  · exact Or.inr rfl

theorem severityName_shows (d : Diagnostic) :
    ∃ word c, severityName d = word ++ [c] ∧ isWhiteSpace c = false := by
  unfold severityName
  split
  · exact ⟨['e', 'r', 'r', 'o'], 'r', rfl, by decide⟩
  · exact ⟨['w', 'a', 'r'], 'n', rfl, by decide⟩

theorem length_beforeSeverity (messageWidth : Nat)
    (hlocation : (location d).length ≤ locationWidth) :
    (beforeSeverity locationWidth d).length = (columnsOf locationWidth messageWidth).severity := by
  simp only [beforeSeverity, columnsOf, List.length_append, length_pad hlocation]
  rfl

theorem length_beforeMessage (messageWidth : Nat)
    (hlocation : (location d).length ≤ locationWidth) :
    (beforeMessage locationWidth d).length = (columnsOf locationWidth messageWidth).message := by
  have hword : (severityName d).length ≤ 5 := by
    have := severityName_length d
    omega
  simp only [beforeMessage, columnsOf, List.length_append, length_pad hword,
    length_beforeSeverity messageWidth hlocation]
  rfl

theorem length_beforeRule (hlocation : (location d).length ≤ locationWidth)
    (hmessage : d.message.toList.length ≤ messageWidth) :
    (beforeRule locationWidth messageWidth d).length =
      (columnsOf locationWidth messageWidth).rule := by
  simp only [beforeRule, columnsOf, List.length_append, length_pad hmessage,
    length_beforeMessage messageWidth hlocation]
  rfl

theorem severity_prefix_row :
    beforeSeverity locationWidth d ++ severityName d <+:
      plainRow locationWidth messageWidth d := by
  obtain ⟨word, c, hword, hc⟩ := severityName_shows d
  have hrow : beforeRule locationWidth messageWidth d ++ ruleName d =
      beforeSeverity locationWidth d ++ word ++ [c] ++
        (List.replicate (5 - (severityName d).length) ' ' ++ gap ++
          pad messageWidth d.message.toList ++ gap ++ ruleName d) := by
    simp only [beforeRule, beforeMessage, pad, hword, List.append_assoc]
  rw [plainRow, hrow, hword, ← List.append_assoc]
  exact WhiteSpace.prefix_trimEnd hc

theorem location_prefix_row :
    gap ++ location d <+: plainRow locationWidth messageWidth d := by
  refine List.IsPrefix.trans ?_ severity_prefix_row
  simp only [beforeSeverity, pad, List.append_assoc]
  exact (List.prefix_append_right_inj gap).mpr (List.prefix_append _ _)

theorem message_prefix_beforeRule :
    beforeMessage locationWidth d ++ d.message.toList <+:
      beforeRule locationWidth messageWidth d := by
  simp only [beforeRule, pad, List.append_assoc]
  exact (List.prefix_append_right_inj _).mpr (List.prefix_append _ _)

/-- The rule is lost only if it does not show. -/
theorem row_of_shows (hrule : ¬ Blank (ruleName d)) :
    plainRow locationWidth messageWidth d =
      beforeRule locationWidth messageWidth d ++ trimEnd (ruleName d) := by
  rw [plainRow, WhiteSpace.trimEnd_append_of_shows hrule]

theorem row_shows (hlocation : (location d).length ≤ locationWidth)
    (hmessage : d.message.toList.length ≤ messageWidth) :
    Shows (columnsOf locationWidth messageWidth) d (plainRow locationWidth messageWidth d) := by
  have hseverityColumn := length_beforeSeverity messageWidth hlocation
  have hmessageColumn := length_beforeMessage messageWidth hlocation
  have hruleColumn := length_beforeRule hlocation hmessage
  have hword := severityName_length d
  constructor
  case location => exact standsAt_of_append location_prefix_row rfl
  case location_ends =>
    simp only [columnsOf]
    omega
  case severity => exact standsAt_of_append severity_prefix_row hseverityColumn
  case severity_ends =>
    simp only [columnsOf]
    omega
  case message =>
    obtain ⟨blanks, hblanks, hfull⟩ := WhiteSpace.exists_blank
      (beforeRule locationWidth messageWidth d ++ ruleName d)
    refine ⟨blanks, hblanks, ?_⟩
    rw [plainRow, hfull]
    exact standsAt_of_append (message_prefix_beforeRule.trans (List.prefix_append _ _))
      hmessageColumn
  case message_whole =>
    intro hrule
    rw [row_of_shows hrule]
    exact standsAt_of_append (message_prefix_beforeRule.trans (List.prefix_append _ _))
      hmessageColumn
  case message_ends =>
    simp only [columnsOf]
    omega
  case rule =>
    intro hrule
    rw [row_of_shows hrule, ← hruleColumn, List.drop_left]

end Row

/-! ### The lines of a file -/

/-- Lines that are each ended by a line break are read back by splitting there. -/
theorem splitOn_lines {lines : List (List Char)} (h : ∀ line ∈ lines, '\n' ∉ line) :
    (lines.flatMap (· ++ ['\n'])).splitOn '\n' = lines ++ [[]] := by
  have hjoined : lines.flatMap (· ++ ['\n']) = ['\n'].intercalate (lines ++ [[]]) := by
    induction lines with
    | nil => rfl
    | cons line lines ih =>
      rw [List.flatMap_cons, ih (List.forall_mem_cons.mp h).2, List.cons_append,
        List.intercalate_cons_of_ne_nil (by simp)]
  rw [hjoined]
  refine List.splitOn_intercalate '\n' (fun line hline => ?_) (by simp)
  rcases List.mem_append.mp hline with hline | hline
  · exact h line hline
  · simp [List.mem_singleton.mp hline]

theorem location_eq (d : Diagnostic) :
    location d = Nat.toDigits 10 d.line ++ ':' :: Nat.toDigits 10 d.column := by
  show ((toString d.line ++ ":") ++ toString d.column).toList = _
  simp

/-- A location is a number, a colon and a number. -/
theorem of_mem_location {d : Diagnostic} {c : Char} (h : c ∈ location d) :
    c.isDigit = true ∨ c = ':' := by
  rw [location_eq, List.mem_append, List.mem_cons] at h
  rcases h with h | h | h
  · exact Or.inl (Nat.isDigit_of_mem_toDigits (by decide) (by decide) h)
  · exact Or.inr h
  · exact Or.inl (Nat.isDigit_of_mem_toDigits (by decide) (by decide) h)

theorem of_mem_gap {c : Char} (h : c ∈ gap) : c = ' ' := by
  simpa [gap] using h

theorem of_mem_pad {width : Nat} {cell : List Char} {c : Char} (h : c ∈ pad width cell) :
    c ∈ cell ∨ c = ' ' :=
  (List.mem_append.mp h).imp_right fun h => (List.mem_replicate.mp h).2

/-- Every character of a row is one of its cells or a space. -/
theorem of_mem_row {locationWidth messageWidth : Nat} {d : Diagnostic} {c : Char}
    (h : c ∈ plainRow locationWidth messageWidth d) :
    c = ' ' ∨ c ∈ location d ∨ c ∈ severityName d ∨ c ∈ d.message.toList ∨ c ∈ ruleName d := by
  rw [plainRow] at h
  have h := (WhiteSpace.trimEnd_prefix_self _).subset h
  simp only [beforeRule, beforeMessage, beforeSeverity, List.mem_append] at h
  rcases h with ((((((h | h) | h) | h) | h) | h) | h) | h
  · exact Or.inl (of_mem_gap h)
  · exact (of_mem_pad h).symm.imp_right Or.inl
  · exact Or.inl (of_mem_gap h)
  · exact (of_mem_pad h).symm.imp_right fun h => Or.inr (Or.inl h)
  · exact Or.inl (of_mem_gap h)
  · exact (of_mem_pad h).symm.imp_right fun h => Or.inr (Or.inr (Or.inl h))
  · exact Or.inl (of_mem_gap h)
  · exact Or.inr (Or.inr (Or.inr (Or.inr h)))

theorem newline_not_mem_row {locationWidth messageWidth : Nat} {d : Diagnostic}
    (hmessage : '\n' ∉ d.message.toList) (hrule : '\n' ∉ ruleName d) :
    '\n' ∉ plainRow locationWidth messageWidth d := by
  intro h
  rcases of_mem_row h with h | h | h | h | h
  · exact absurd h (by decide)
  · rcases of_mem_location h with h | h
    · exact absurd h (by decide)
    · exact absurd h (by decide)
  · unfold severityName at h
    split at h
    · exact absurd h (by decide)
    · exact absurd h (by decide)
  · exact hmessage h
  · exact hrule h

/-! ### Files that can be shown -/

/-- No column of a file is too wide. -/
structure Fits (report : FileReport) : Prop where
  location : locationWidth report.messages ≤ maxWidth
  message : messageWidth report.messages ≤ maxWidth

theorem fits_of_clean {report : FileReport} (h : report.messages = []) : Fits report := by
  constructor
  · rw [h]
    exact Nat.zero_le _
  · rw [h]
    exact Nat.zero_le _

theorem fileLines?_eq {painter : Painter} {theme : Theme} {report : FileReport} (h : Fits report) :
    fileLines? painter theme report =
      some (if report.isClean then []
        else painter.paint theme.path report.path.toList ::
          report.messages.map (row painter theme (locationWidth report.messages)
            (messageWidth report.messages))) := by
  have hrows : rows? painter theme report.messages = some _ := if_pos ⟨h.location, h.message⟩
  rw [fileLines?, hrows]
  split <;> rfl

/-- **A file is shown exactly if no column is too wide**, in whatever styles. -/
theorem renderFile?_eq_none_iff {painter : Painter} {theme : Theme} {report : FileReport} :
    renderFile? painter theme report = none ↔ ¬ Fits report := by
  constructor
  · intro hnone hfits
    rw [renderFile?, fileLines?_eq hfits] at hnone
    cases hnone
  · intro hnot
    have hclean : report.isClean = false := by
      rw [Bool.eq_false_iff]
      exact fun hclean => hnot (fits_of_clean (List.isEmpty_iff.mp hclean))
    have hwide : ¬ (locationWidth report.messages ≤ maxWidth ∧
        messageWidth report.messages ≤ maxWidth) := fun h => hnot ⟨h.1, h.2⟩
    rw [renderFile?, fileLines?, hclean, rows?, if_neg hwide]
    rfl

theorem length_location_le {d : Diagnostic} (hline : d.line < 10 ^ 20)
    (hcolumn : d.column < 10 ^ 20) : (location d).length ≤ 41 := by
  have hdigits : ∀ n < 10 ^ 20, (Nat.toDigits 10 n).length ≤ 20 := by
    intro n hn
    have hlength := Nat.repr_length n 20 (by decide) hn
    rwa [← String.length_toList, Nat.toList_repr] at hlength
  have h₁ := hdigits _ hline
  have h₂ := hdigits _ hcolumn
  rw [location_eq, List.length_append, List.length_cons]
  omega

/-- **Only a long message is too wide**: of numbers of 64 bits no place comes near the
limit. -/
theorem fits_iff {report : FileReport}
    (hwords : ∀ d ∈ report.messages, d.line < 2 ^ 64 ∧ d.column < 2 ^ 64) :
    Fits report ↔ ∀ d ∈ report.messages, (Utf8.encode d.message.toList).length ≤ maxWidth := by
  have hlocation : locationWidth report.messages ≤ maxWidth := by
    rw [locationWidth, columnWidth_le_iff, List.forall_mem_map]
    intro d hd
    have hascii : ∀ c ∈ location d, c.toNat < 0x80 := by
      intro c hc
      rcases of_mem_location hc with h | rfl
      · simp only [Char.isDigit, ge_iff_le, Bool.and_eq_true, decide_eq_true_eq,
          UInt32.le_iff_toNat_le] at h
        exact Nat.lt_of_le_of_lt h.2 (by decide)
      · decide
    have hlength := length_location_le (d := d) (by have := hwords d hd; omega)
      (by have := hwords d hd; omega)
    rw [Utf8.length_encode_of_ascii hascii, maxWidth]
    omega
  have hmessage : messageWidth report.messages ≤ maxWidth ↔
      ∀ d ∈ report.messages, (Utf8.encode d.message.toList).length ≤ maxWidth := by
    rw [messageWidth, columnWidth_le_iff, List.forall_mem_map]
  exact ⟨fun h => hmessage.mp h.message, fun h => ⟨hlocation, hmessage.mpr h⟩⟩

/-- **The rows of a file stand in columns, whatever is shown in them.**  Nothing is shown of a
file without problems.  Otherwise its lines are its path and a row for each problem, in order,
and one set of columns serves all rows.  That is so for every file in which no message is
longer than a column may be wide, and the others are not shown at all. -/
theorem rows_stand_in_columns {painter : Painter} (hpainter : painter.Lawful) (report : FileReport)
    (hpath : '\n' ∉ report.path.toList)
    (hmessages : ∀ d ∈ report.messages, '\n' ∉ d.message.toList ∧ '\n' ∉ ruleName d) :
    (report.messages = [] → renderFile? painter .plain report = some "") ∧
      (report.messages ≠ [] → Fits report → ∃ text rows,
        renderFile? painter .plain report = some text ∧
          text.toList.splitOn '\n' = report.path.toList :: rows ++ [[]] ∧
            ∃ columns : Columns, List.Forall₂ (Shows columns) report.messages rows) ∧
      (¬ Fits report → renderFile? painter .plain report = none) ∧
      ((∀ d ∈ report.messages, d.line < 2 ^ 64 ∧ d.column < 2 ^ 64) →
        (Fits report ↔
          ∀ d ∈ report.messages, (Utf8.encode d.message.toList).length ≤ maxWidth)) := by
  refine ⟨fun hnone => ?_, fun hsome hfits => ?_, renderFile?_eq_none_iff.mpr, fits_iff⟩
  · rw [renderFile?, fileLines?_eq (fits_of_clean hnone), FileReport.isClean, hnone]
    rfl
  · have hdirty : report.isClean = false := by
      rw [Bool.eq_false_iff]
      exact fun hclean => hsome (List.isEmpty_iff.mp hclean)
    have hplain : row painter .plain (locationWidth report.messages)
        (messageWidth report.messages) =
          plainRow (locationWidth report.messages) (messageWidth report.messages) :=
      funext (row_plain hpainter _ _)
    have hlines : fileLines? painter .plain report = _ := fileLines?_eq hfits
    rw [hdirty, if_neg Bool.false_ne_true, hplain, Theme.plain, hpainter.paint_plain] at hlines
    refine ⟨_, report.messages.map
        (plainRow (locationWidth report.messages) (messageWidth report.messages)),
      congrArg _ hlines, ?_, columnsOf (locationWidth report.messages)
        (messageWidth report.messages), ?_⟩
    · rw [String.toList_ofList]
      refine splitOn_lines (List.forall_mem_cons.mpr ⟨hpath, fun line hline => ?_⟩)
      obtain ⟨d, hd, rfl⟩ := List.mem_map.mp hline
      exact newline_not_mem_row (hmessages d hd).1 (hmessages d hd).2
    · rw [List.forall₂_map_right_iff, List.forall₂_same]
      intro d hd
      exact row_shows (length_le_columnWidth (List.mem_map_of_mem hd))
        (length_le_columnWidth (List.mem_map_of_mem (f := fun d => d.message.toList) hd))

/-! ### Two rows of different shape -/

namespace MixedRows

/-- A file with a warning whose message takes more octets than characters, and a failure,
which no rule found. -/
def report : FileReport where
  path := "src/é.js"
  messages :=
    [.ofReport "no-undefined" .warn
        ⟨⟨0, "undefined", .undefined, ⟨120, 129⟩, ⟨11, 22⟩⟩, "Kein »undefined« mehr"⟩,
      .failure "Parsing error: Missing ;" 40 5]

end MixedRows

/-- Both rows of the file stand in the same columns. -/
theorem rows_stand_in_columns_mixed :
    Painter.terminal.Lawful ∧ '\n' ∉ MixedRows.report.path.toList ∧
      (∀ d ∈ MixedRows.report.messages, '\n' ∉ d.message.toList ∧ '\n' ∉ ruleName d) ∧
      Fits MixedRows.report ∧
      ∃ text rows, renderFile? .terminal .plain MixedRows.report = some text ∧
        text.toList.splitOn '\n' = MixedRows.report.path.toList :: rows ++ [[]] ∧
          ∃ columns : Columns, List.Forall₂ (Shows columns) MixedRows.report.messages rows := by
  have hpath : '\n' ∉ MixedRows.report.path.toList := by decide +kernel
  have hmessages : ∀ d ∈ MixedRows.report.messages,
      '\n' ∉ d.message.toList ∧ '\n' ∉ ruleName d := by decide +kernel
  have hfits : Fits MixedRows.report := ⟨by decide +kernel, by decide +kernel⟩
  obtain ⟨_, hrows, _⟩ :=
    rows_stand_in_columns Painter.terminal_lawful MixedRows.report hpath hmessages
  exact ⟨Painter.terminal_lawful, hpath, hmessages, hfits, hrows nofun hfits⟩

/-! ### A long message -/

namespace LongMessage

/-- A file with a failure whose message is one character longer than a column may be wide. -/
def report : FileReport where
  path := "a.js"
  messages := [.failure (String.ofList (List.replicate (maxWidth + 1) 'a')) 1 1]

end LongMessage

/-- **A file with a message that is too long is not shown**, though nothing in it breaks a
line. -/
theorem long_message_shows_nothing :
    '\n' ∉ LongMessage.report.path.toList ∧
      (∀ d ∈ LongMessage.report.messages, '\n' ∉ d.message.toList ∧ '\n' ∉ ruleName d) ∧
      (∀ painter, renderFile? painter .plain LongMessage.report = none) := by
  have htext : (String.ofList (List.replicate (maxWidth + 1) 'a')).toList =
      List.replicate (maxWidth + 1) 'a' := String.toList_ofList
  refine ⟨by decide, List.forall_mem_singleton.mpr ⟨?_, by decide⟩, fun painter => ?_⟩
  · show '\n' ∉ (String.ofList (List.replicate (maxWidth + 1) 'a')).toList
    rw [htext]
    exact fun h => absurd (List.eq_of_mem_replicate h) (by decide)
  · refine renderFile?_eq_none_iff.mpr fun hfits => ?_
    have hwords : ∀ d ∈ LongMessage.report.messages, d.line < 2 ^ 64 ∧ d.column < 2 ^ 64 :=
      List.forall_mem_singleton.mpr ⟨by decide, by decide⟩
    have hshort := (fits_iff hwords).mp hfits _ (List.mem_singleton_self _)
    have hlength : (Utf8.encode (List.replicate (maxWidth + 1) 'a')).length = maxWidth + 1 := by
      rw [Utf8.length_encode_of_ascii, List.length_replicate]
      exact fun c hc => List.eq_of_mem_replicate hc ▸ by decide
    change (Utf8.encode (String.ofList (List.replicate (maxWidth + 1) 'a')).toList).length ≤ _
      at hshort
    rw [htext, hlength] at hshort
    exact absurd hshort (Nat.not_succ_le_self _)

end Display

end ScopeLint
