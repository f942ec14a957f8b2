/-!
# Characters and filler of TOML documents

A reader takes something from the head of a text and leaves the rest.  Between
the things that say something stand blanks, line breaks and comments.
-/

namespace ScopeLint.Toml

/-- Something read at the head of a text, and the text after it. -/
abbrev Read (α : Type) := Option (α × List Char)

/-- Whether a character is a space or a tab. -/
def isBlank (c : Char) : Bool := c == ' ' || c == '\t'

/-- Whether a character is an ASCII control. -/
def isControl (c : Char) : Bool := c.toNat < 0x20 || c.toNat == 0x7F

/-- Whether a character may stand as itself in a comment. -/
def isPlain (c : Char) : Bool := c == '\t' || !isControl c

/-- The text after the blanks at its head. -/
def skipBlanks (s : List Char) : List Char := s.dropWhile isBlank

/-- The text after the comment at its head, if one stands there. -/
def skipComment (s : List Char) : List Char :=
  if s.head? = some '#' then s.dropWhile isPlain else s

/-- The text after the line break at its head. -/
def newline? : List Char → Option (List Char)
  | '\n' :: rest => some rest
  | '\r' :: '\n' :: rest => some rest
  | _ => none

/-- The text after the rest of a line that says nothing more. -/
def lineEnd? (s : List Char) : Option (List Char) :=
  match skipComment (skipBlanks s) with
  | [] => some []
  | rest => newline? rest

/-- The text after the blanks, line breaks and comments at its head, where
`commented` tells whether it begins inside a comment. -/
def skipFiller (commented : Bool) : List Char → List Char
  | [] => []
  | c :: rest =>
    if c = '\n' ∨ (c = '\r' ∧ rest.head? = some '\n') then skipFiller false rest
    else if (commented && isPlain c) || c = '#' then skipFiller true rest
    else if isBlank c then skipFiller false rest
    else c :: rest

end ScopeLint.Toml
