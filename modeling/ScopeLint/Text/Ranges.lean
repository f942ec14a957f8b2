/-!
# Sets of characters by ranges

A character class of the Unicode standard is kept as the increasing list of its
ranges of code points, both ends included.
-/

namespace ScopeLint.Ranges

/-- Whether a code point lies in one of the ranges. -/
def contains (ranges : List (Nat × Nat)) (point : Nat) : Bool :=
  ranges.any fun range => range.1 ≤ point && point ≤ range.2

end ScopeLint.Ranges
