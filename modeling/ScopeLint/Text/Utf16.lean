import ScopeLint.Text.Utf8

/-!
# UTF-16 columns

Columns are counted in UTF-16 code units: one for a character of the basic plane
and two for any other.  `column` turns the distance in octets from the start of
a line into such a column.
-/

namespace ScopeLint.Utf16

/-- The UTF-16 code units of a character. -/
def unitsOf (c : Char) : Nat := if c.toNat < 0x10000 then 1 else 2

/-- The UTF-16 code units of a text. -/
def units : List Char → Nat
  | [] => 0
  | c :: rest => unitsOf c + units rest

/-- The UTF-16 column of the octet `byte` of `source`, which lies `byteColumn`
octets after the start of its line.  Where there is no such line in the source
the column is the distance in octets itself. -/
def column (source : List UInt8) (byte byteColumn : Nat) : Nat :=
  if byteColumn ≤ byte ∧ byte ≤ source.length then
    units (Utf8.decodeLossy ((source.drop (byte - byteColumn)).take byteColumn))
  else
    byteColumn

end ScopeLint.Utf16
