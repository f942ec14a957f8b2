/-!
# UTF-8

Texts are lists of characters and files are lists of octets; this module goes
between the two.  `encode` writes characters.  Reading is a machine (`Reading`)
that takes one octet at a time: it is between characters, or inside one, where
it knows how many octets are still owed and which range the next of them must
lie in.  An octet outside that range ends the broken character and is then read
afresh, so a broken character is always a longest start of a possible one.

Every reader below is the same machine: `decodeLossy` puts U+FFFD for each
broken character, and `decode?` accepts only texts without any.
-/

namespace ScopeLint.Utf8

/-- The octet of a number below 256. -/
def octet (n : Nat) : UInt8 := UInt8.ofNat n

/-- The one to four octets of a character. -/
def encodeChar (c : Char) : List UInt8 :=
  let n := c.toNat
  if n < 0x80 then [octet n]
  else if n < 0x800 then [octet (0xC0 + n / 64), octet (0x80 + n % 64)]
  else if n < 0x10000 then
    [octet (0xE0 + n / 4096), octet (0x80 + n / 64 % 64), octet (0x80 + n % 64)]
  else
    [octet (0xF0 + n / 262144), octet (0x80 + n / 4096 % 64), octet (0x80 + n / 64 % 64),
      octet (0x80 + n % 64)]

/-- The octets of a text. -/
def encode (text : List Char) : List UInt8 := text.flatMap encodeChar

/-- How many octets a character takes. -/
def width (c : Char) : Nat :=
  if c.toNat < 0x80 then 1 else if c.toNat < 0x800 then 2 else if c.toNat < 0x10000 then 3 else 4

/-- Whether an octet continues a character, as `10xxxxxx`. -/
def isContinuation (b : UInt8) : Bool := 0x80 ≤ b.toNat && b.toNat < 0xC0

/-! ## The reading machine -/

/-- Where a reader stands. -/
inductive Reading where
  /-- Between two characters. -/
  | between
  /-- Inside a character: `owed + 1` octets are to come, the next of them
  between `low` and `high`, and `value` is what the octets so far amount to. -/
  | inside (value owed low high : Nat)
  deriving DecidableEq, Repr

/-- A character that was read, or the broken start of one (`none`). -/
abbrev Piece := Option Char

namespace Reading

/-- One octet read between characters: what it completes, and where it leads. -/
def fresh (b : Nat) : List Piece × Reading :=
  if b < 0x80 then ([some (Char.ofNat b)], between)
  else if 0xC2 ≤ b ∧ b ≤ 0xDF then ([], inside (b - 0xC0) 0 0x80 0xBF)
  else if b = 0xE0 then ([], inside 0 1 0xA0 0xBF)
  else if b = 0xED then ([], inside 13 1 0x80 0x9F)
  else if 0xE1 ≤ b ∧ b ≤ 0xEF then ([], inside (b - 0xE0) 1 0x80 0xBF)
  else if b = 0xF0 then ([], inside 0 2 0x90 0xBF)
  else if b = 0xF4 then ([], inside 4 2 0x80 0x8F)
  else if 0xF1 ≤ b ∧ b ≤ 0xF3 then ([], inside (b - 0xF0) 2 0x80 0xBF)
  else ([none], between)

/-- One octet: the pieces it completes, and where it leads. -/
def step (b : Nat) : Reading → List Piece × Reading
  | between => fresh b
  | inside value owed low high =>
    if low ≤ b ∧ b ≤ high then
      match owed with
      | 0 => ([some (Char.ofNat (value * 64 + b % 64))], between)
      | owed + 1 => ([], inside (value * 64 + b % 64) owed 0x80 0xBF)
    else
      (none :: (fresh b).1, (fresh b).2)

/-- The pieces of the octets that follow. -/
def run : Reading → List UInt8 → List Piece
  | between, [] => []
  | inside .., [] => [none]
  | r, b :: rest => (r.step b.toNat).1 ++ run (r.step b.toNat).2 rest

end Reading

/-- The characters of a file, and its broken characters as `none`. -/
def pieces (bytes : List UInt8) : List Piece := Reading.between.run bytes

/-- The text of a file, each broken character replaced by U+FFFD. -/
def decodeLossy (bytes : List UInt8) : List Char :=
  (pieces bytes).map fun piece => piece.getD '\ufffd'

/-- The text of a file that holds no broken character. -/
def decode? (bytes : List UInt8) : Option (List Char) :=
  (pieces bytes).mapM id

end ScopeLint.Utf8
