import ScopeLint.Syntax.Table

/-!
# Tables as text

A table is written one row a line.  A line holds the kind, the two ends of the
range, the position of the parent or a dash, the marks and the fields, separated
by tabs; a mark is `n` for a named node, `m` for a missing one and `e` for one that
is or holds an error, and fields are separated by blanks.
-/

namespace ScopeLint.Syntax

/-- The row of a line. -/
def Row.ofLine? (line : String) : Option Row :=
  match line.splitOn "\t" with
  | [kind, start, stop, parent, marks, fields] => do
    let start ← start.toNat?
    let stop ← stop.toNat?
    let parent ← if parent = "-" then some none else parent.toNat?.map some
    some
      { kind, span := ⟨start, stop⟩, parent
        named := marks.contains 'n', missing := marks.contains 'm'
        hasError := marks.contains 'e', fields := (fields.splitOn " ").filter (· ≠ "") }
  | _ => none

/-- The rows of a text; none when a line holds no row. -/
def Table.ofText? (text : String) : Option (List Row) :=
  ((text.splitOn "\n").filter (· ≠ "")).mapM Row.ofLine?

end ScopeLint.Syntax
