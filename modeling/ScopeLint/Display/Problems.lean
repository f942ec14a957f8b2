import ScopeLint.Display.Style
import ScopeLint.Lint.Summary
import ScopeLint.Text.Utf8
import ScopeLint.Text.WhiteSpace

/-!
# Showing problems

The problems of a file are shown below its path, one to a row: place, severity,
message and rule, each column as wide as its widest cell is long in octets.  The
width of a column is a number of 16 bits; a file with a wider one cannot be
shown, and the attempt ends the program.  A run closes with a line that counts its
problems.
-/

namespace ScopeLint.Display

/-- The widest that a column may be. -/
def maxWidth : Nat := 0xffff

/-- A text filled up with spaces to a number of characters. -/
def pad (width : Nat) (text : List Char) : List Char :=
  text ++ List.replicate (width - text.length) ' '

/-- The width of a column: the most octets that one of its cells takes. -/
def columnWidth (cells : List (List Char)) : Nat :=
  (cells.map fun cell => (Utf8.encode cell).length).foldl max 0

/-- The place of a problem. -/
def location (d : Diagnostic) : List Char := s!"{d.line}:{d.column}".toList

/-- The width of the column for the places of some problems. -/
def locationWidth (ds : List Diagnostic) : Nat := columnWidth (ds.map location)

/-- The width of the column for the messages of some problems. -/
def messageWidth (ds : List Diagnostic) : Nat := columnWidth (ds.map (·.message.toList))

/-- The word for the severity of a problem, in its style. -/
def severityWord (painter : Painter) (theme : Theme) (d : Diagnostic) : List Char :=
  if d.isError then painter.paint theme.error (pad 5 "error".toList)
  else painter.paint theme.warn (pad 5 "warn".toList)

/-- The gap between two columns. -/
def gap : List Char := [' ', ' ']

/-- The row of a problem, between columns of some widths. -/
def row (painter : Painter) (theme : Theme) (locationWidth messageWidth : Nat) (d : Diagnostic) :
    List Char :=
  WhiteSpace.trimEnd <|
    gap ++ painter.paint theme.location (pad locationWidth (location d)) ++
    gap ++ severityWord painter theme d ++
    gap ++ pad messageWidth d.message.toList ++
    gap ++ painter.paint theme.rule (d.rule.getD "").toList

/-- The rows of some problems; none when a column is too wide. -/
def rows? (painter : Painter) (theme : Theme) (ds : List Diagnostic) :
    Option (List (List Char)) :=
  if locationWidth ds ≤ maxWidth ∧ messageWidth ds ≤ maxWidth then
    some (ds.map (row painter theme (locationWidth ds) (messageWidth ds)))
  else none

/-- The lines that show a file: its path and a row for each problem, or nothing
when it has none. -/
def fileLines? (painter : Painter) (theme : Theme) (report : FileReport) :
    Option (List (List Char)) :=
  if report.isClean then some []
  else
    (rows? painter theme report.messages).map
      (painter.paint theme.path report.path.toList :: ·)

/-- **What is shown of a file**, each line ended by a line break.  None when a
column is too wide, which ends the program. -/
def renderFile? (painter : Painter) (theme : Theme) (report : FileReport) : Option String :=
  (fileLines? painter theme report).map fun lines => String.ofList (lines.flatMap (· ++ ['\n']))

/-- A number of things, in words. -/
def count (n : Nat) (word : String) : String :=
  if n = 1 then s!"{n} {word}" else s!"{n} {word}s"

/-- **The line that closes a run.** -/
def renderSummary (painter : Painter) (theme : Theme) (s : Summary) : String :=
  if s.problems = 0 then
    String.ofList
      (painter.paint theme.success ("✅ No problems in " ++ count s.files "file").toList)
  else
    let text := "✖ " ++ count s.problems "problem" ++ " (" ++ count s.errors "error" ++ ", " ++
      count s.warnings "warning" ++ ")"
    let style := if s.errors > 0 then theme.error else theme.warn
    String.ofList (painter.paint style text.toList)

/-! ## On the terminal -/

/-- What is shown of a file on the terminal, where it can be shown. -/
def showFile (theme : Theme) (report : FileReport) : String :=
  (renderFile? .terminal theme report).getD ""

/-- The line that closes a run on the terminal. -/
def showSummary (theme : Theme) (s : Summary) : String := renderSummary .terminal theme s

end ScopeLint.Display
