import ScopeLint.Text.Utf8

/-!
# Lines of files

A file is read line by line: a line ends with a line feed, or with a carriage
return and a line feed, and the last line may end with the file.  A line that is
not UTF-8 ends the reading.
-/

namespace ScopeLint.Lines

/-- The lines of a file by octets, each without its line break. -/
def octets : List UInt8 → List (List UInt8)
  | [] => []
  | b :: rest =>
    if b = 10 then [] :: octets rest
    else if b = 13 ∧ rest.head? = some 10 then octets rest
    else
      match octets rest with
      | [] => [[b]]
      | line :: lines => (b :: line) :: lines

/-- The lines of a file before the first that is not UTF-8. -/
def ofFile (content : List UInt8) : List (List Char) :=
  (((octets content).map Utf8.decode?).takeWhile Option.isSome).filterMap id

/-- The first line of a file. -/
def first? (content : List UInt8) : Option (List Char) := (ofFile content).head?

end ScopeLint.Lines
