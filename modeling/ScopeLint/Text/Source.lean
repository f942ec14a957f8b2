import ScopeLint.Text.Utf16

/-!
# Places in a source text

A source text is read by octet offsets.  A `Span` is a range of them, a `Point`
counts lines and octets as a parser does, and a `Position` counts lines and
UTF-16 code units as the tools of the language report them.
-/

namespace ScopeLint

/-- The octets `start ≤ i < stop` of a source text. -/
structure Span where
  /-- The first octet. -/
  start : Nat
  /-- The octet after the last. -/
  stop : Nat
  deriving DecidableEq, Repr, Inhabited

namespace Span

/-- How many octets a span holds; none when it ends before it starts. -/
def length (s : Span) : Nat := s.stop - s.start

/-- Whether a span holds no octet. -/
def isEmpty (s : Span) : Bool := s.length == 0

end Span

/-- A place by the line breaks before it and the octets since the last of them. -/
structure Point where
  /-- The line breaks before the place. -/
  row : Nat
  /-- The octets between the last line break and the place. -/
  byteColumn : Nat
  deriving DecidableEq, Repr, Inhabited

/-- A place by line and UTF-16 column, both counted from 0. -/
structure Position where
  /-- The line. -/
  line : Nat
  /-- The UTF-16 code units before the place on its line. -/
  column : Nat
  deriving DecidableEq, Repr, Inhabited

/-- The octets of a source text. -/
abbrev Source := List UInt8

namespace Source

/-- The octets of a text. -/
def ofText (text : String) : Source := Utf8.encode text.toList

/-- The octet that ends a line. -/
def newline : UInt8 := 10

/-- The point reached from `p` by passing the octet `b`. -/
def advance (p : Point) (b : UInt8) : Point :=
  if b = newline then ⟨p.row + 1, 0⟩ else ⟨p.row, p.byteColumn + 1⟩

/-- The point of an offset; offsets past the end count as the end. -/
def pointAt (source : Source) (offset : Nat) : Point :=
  (source.take offset).foldl advance ⟨0, 0⟩

/-- The octets of a span that lies in the source. -/
def bytesOf? (source : Source) (span : Span) : Option (List UInt8) :=
  if span.start ≤ span.stop ∧ span.stop ≤ source.length then
    some ((source.drop span.start).take span.length)
  else
    none

/-- The text of a span; a span outside the source, or one that cuts a character,
has the empty text. -/
def textOf (source : Source) (span : Span) : List Char :=
  ((source.bytesOf? span).bind Utf8.decode?).getD []

/-- Whether a character can start at an offset: at either end of the source, or
where no continuation octet stands. -/
def isBoundary (source : Source) (offset : Nat) : Bool :=
  match source[offset]? with
  | some b => offset == 0 || !Utf8.isContinuation b
  | none => offset == source.length

/-- The octets between two character boundaries; none where the offsets are out
of order, out of the source or inside a character. -/
def cut? (source : Source) (start stop : Nat) : Option (List UInt8) :=
  if source.isBoundary start && source.isBoundary stop then source.bytesOf? ⟨start, stop⟩ else none

/-- The position of a node that starts at `offset`, at the parser's `point`. -/
def positionOf (source : Source) (offset : Nat) (point : Point) : Position :=
  ⟨point.row, Utf16.column source offset point.byteColumn⟩

end Source

end ScopeLint
