import ScopeLint.Config.Settings
import ScopeLint.Text.Width

/-!
# The listing of rules

The rules are listed in a table with round corners: a head, a line below it, and
a record for each rule.  A cell may hold several lines; its record is as high as
its highest cell, and a column as wide as its widest line on a terminal.
-/

namespace ScopeLint.RuleTable

/-- The heads of the columns. -/
def head : List String := ["Rule", "Category", "Recommended", "Severity", "Description"]

/-- The cells of a rule. -/
def cells (settings : Settings) (rule : Rule) : List String :=
  [rule.name, rule.info.category.title, if rule.info.recommended then "yes" else "no",
    (settings.severity rule.name).name, rule.info.description]

/-- The lines of a cell. -/
def linesOf (cell : String) : List String := cell.splitOn "\n"

/-- The width of a cell. -/
def cellWidth (cell : String) : Nat := ((linesOf cell).map Width.ofText).foldl max 0

/-- The widths of the columns of some records. -/
def columnWidths (records : List (List String)) : List Nat :=
  (List.range head.length).map fun i =>
    (records.map fun record => cellWidth (record.getD i "")).foldl max 0

/-- A line of a cell, filled up to the width of its column. -/
def fill (width : Nat) (line : String) : String :=
  " " ++ line.pushn ' ' (width - Width.ofText line) ++ " "

/-- The lines of a record. -/
def recordLines (widths : List Nat) (record : List String) : List String :=
  let columns := record.map linesOf
  let height := (columns.map List.length).foldl max 1
  (List.range height).map fun i =>
    "│" ++ "│".intercalate ((columns.zip widths).map fun (lines, width) =>
      fill width (lines.getD i "")) ++ "│"

/-- A line of the frame. -/
def frame (left cross right : String) (widths : List Nat) : String :=
  left ++ cross.intercalate (widths.map fun width => "".pushn '─' (width + 2)) ++ right

/-- **The listing of some rules**, with their severities; nothing for no rules. -/
def render (settings : Settings) (rules : List Rule) : String :=
  if rules.isEmpty then ""
  else
    let records := rules.map (cells settings)
    let widths := columnWidths (head :: records)
    "\n".intercalate <|
      [frame "╭" "┬" "╮" widths] ++ recordLines widths head ++ [frame "├" "┼" "┤" widths] ++
        records.flatMap (recordLines widths) ++ [frame "╰" "┴" "╯" widths]

end ScopeLint.RuleTable
