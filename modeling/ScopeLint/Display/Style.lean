/-!
# Styles of the terminal

A style is a list of display attributes.  A painter puts texts on a terminal in a style;
which escapes it sends is its own affair.  The one that the program runs with sends the
codes of the attributes before a text and the code that turns all of them off behind it;
a text in a style without attributes it leaves alone.
-/

namespace ScopeLint

/-- A display attribute. -/
inductive Attribute where
  | red
  | green
  | yellow
  | white
  | brightBlack
  | bold
  | dimmed
  | underlined
  deriving DecidableEq, Repr, Inhabited

/-- A style. -/
structure Style where
  /-- Its attributes, in the order in which they are asked for. -/
  attributes : List Attribute
  deriving DecidableEq, Repr, Inhabited

/-- What puts texts on a terminal. -/
structure Painter where
  /-- A text in a style. -/
  paint : Style → List Char → List Char

namespace Painter

/-- The code of an attribute. -/
def code : Attribute → Nat
  | .red => 31
  | .green => 32
  | .yellow => 33
  | .white => 37
  | .brightBlack => 90
  | .bold => 1
  | .dimmed => 2
  | .underlined => 4

/-- The escape for some codes. -/
def escape (codes : List Nat) : List Char :=
  ['\x1b', '['] ++ (";".intercalate (codes.map toString)).toList ++ ['m']

/-- **The painter that sends codes.** -/
def terminal : Painter where
  paint style text :=
    if style.attributes.isEmpty then text
    else escape (style.attributes.map code) ++ text ++ escape [0]

end Painter

/-- The styles of a report. -/
structure Theme where
  /-- A run without problems. -/
  success : Style
  /-- Errors, and runs that have any. -/
  error : Style
  /-- Warnings, and runs that have no more than those. -/
  warn : Style
  /-- The path above the problems of a file. -/
  path : Style
  /-- The line and column of a problem. -/
  location : Style
  /-- The name of a rule. -/
  rule : Style
  deriving DecidableEq, Repr, Inhabited

namespace Theme

/-- The theme of a terminal with colors. -/
def colored : Theme where
  success := ⟨[.green, .bold]⟩
  error := ⟨[.red]⟩
  warn := ⟨[.yellow]⟩
  path := ⟨[.underlined]⟩
  location := ⟨[.brightBlack]⟩
  rule := ⟨[.white, .dimmed]⟩

/-- The theme without any styles. -/
def plain : Theme := ⟨⟨[]⟩, ⟨[]⟩, ⟨[]⟩, ⟨[]⟩, ⟨[]⟩, ⟨[]⟩⟩

end Theme

end ScopeLint
