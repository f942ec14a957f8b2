import ScopeLint.Text.Ranges

/-!
# White space

The characters with the Unicode property White_Space, and the trimming of lines
by them.
-/

namespace ScopeLint.WhiteSpace

/-- The code points with the property White_Space. -/
def ranges : List (Nat × Nat) :=
  [(0x9, 0xd), (0x20, 0x20), (0x85, 0x85), (0xa0, 0xa0), (0x1680, 0x1680), (0x2000, 0x200a),
    (0x2028, 0x2029), (0x202f, 0x202f), (0x205f, 0x205f), (0x3000, 0x3000)]

/-- Whether a character is white space. -/
def isWhiteSpace (c : Char) : Bool := Ranges.contains ranges c.toNat

/-- A line without the white space at its end. -/
def trimEnd (line : List Char) : List Char := (line.reverse.dropWhile isWhiteSpace).reverse

end ScopeLint.WhiteSpace
