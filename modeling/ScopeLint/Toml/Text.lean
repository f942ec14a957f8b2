import ScopeLint.Toml.Basic

/-!
# Texts in TOML documents

A text is written between single or double quotes, once or three times.  Between
double quotes a backslash begins an escape; between triple quotes the text may
hold line breaks, and quotes as long as three do not follow each other.  `read`
reads all four forms, and `write` chooses the plainest form that fits: but for
tabs, escapes are written only where no other form can hold the text.
-/

namespace ScopeLint.Toml.Text

/-- A form that texts are written in. -/
structure Form where
  /-- The quote around the text. -/
  quote : Char
  /-- Whether the quote stands three times. -/
  tripled : Bool
  deriving DecidableEq, Repr, Inhabited

namespace Form

def basic : Form := ⟨'"', false⟩
def longBasic : Form := ⟨'"', true⟩
def literal : Form := ⟨'\'', false⟩
def longLiteral : Form := ⟨'\'', true⟩

/-- Whether a backslash begins an escape. -/
def escapes (form : Form) : Bool := form.quote == '"'

/-- The quotes around a text. -/
def quotes (form : Form) : List Char := List.replicate (if form.tripled then 3 else 1) form.quote

end Form

/-! ## Reading -/

/-- Where the reader of a text stands. -/
inductive Place where
  /-- Between two characters. -/
  | between
  /-- After a backslash. -/
  | escape
  /-- In an escape by code point: `owed + 1` digits are to come, and `value` is
  what the digits so far amount to. -/
  | code (owed value : Nat)
  /-- After a backslash and blanks, which a line break must follow. -/
  | broken
  /-- After an escaped line break, where blanks and line breaks are passed over. -/
  | folding
  deriving DecidableEq, Repr

/-- What an escape of one letter stands for. -/
def unescape? : Char → Option Char
  | 'b' => some '\x08'
  | 't' => some '\t'
  | 'n' => some '\n'
  | 'f' => some '\x0c'
  | 'r' => some '\r'
  | '"' => some '"'
  | '\\' => some '\\'
  | _ => none

/-- The value of a hexadecimal digit. -/
def hexValue? (c : Char) : Option Nat :=
  if '0' ≤ c ∧ c ≤ '9' then some (c.toNat - 48)
  else if 'a' ≤ c ∧ c ≤ 'f' then some (c.toNat - 87)
  else if 'A' ≤ c ∧ c ≤ 'F' then some (c.toNat - 55)
  else none

/-- The character of a code point. -/
def ofCode? (n : Nat) : Option Char := if n.isValidChar then some (Char.ofNat n) else none

/-- What closes a text, after its first quote: how many further quotes belong to
the text, and the rest.  One or two quotes may stand before three closing ones. -/
def close? (form : Form) (rest : List Char) : Option (Nat × List Char) :=
  if form.tripled then
    match rest with
    | a :: b :: tail =>
      if a = form.quote ∧ b = form.quote then
        match tail with
        | c :: tail' =>
          if c = form.quote then
            match tail' with
            | d :: tail'' => if d = form.quote then some (2, tail'') else some (1, tail')
            | [] => some (1, [])
          else some (0, tail)
        | [] => some (0, [])
      else none
    | _ => none
  else some (0, rest)

/-- Puts a character before what is read. -/
def push (c : Char) (r : Read (List Char)) : Read (List Char) :=
  r.map fun (text, rest) => (c :: text, rest)

/-- Whether a line break stands where `c` is followed by `rest`. -/
def atBreak (c : Char) (rest : List Char) : Bool :=
  c == '\n' || (c == '\r' && rest.head? == some '\n')

/-- Reads a text up to its closing quotes. -/
def body (form : Form) : Place → List Char → Read (List Char)
  | _, [] => none
  | .escape, c :: rest =>
    match unescape? c with
    | some d => push d (body form .between rest)
    | none =>
      if c = 'u' then body form (.code 3 0) rest
      else if c = 'U' then body form (.code 7 0) rest
      else if form.tripled && isBlank c then body form .broken rest
      else if form.tripled && c = '\n' then body form .folding rest
      else if form.tripled && atBreak c rest then body form .broken rest
      else none
  | .code owed value, c :: rest =>
    match hexValue? c with
    | none => none
    | some d =>
      match owed with
      | 0 =>
        match ofCode? (value * 16 + d) with
        | some c => push c (body form .between rest)
        | none => none
      | owed + 1 => body form (.code owed (value * 16 + d)) rest
  | .broken, c :: rest =>
    if c = '\n' then body form .folding rest
    else if isBlank c || atBreak c rest then body form .broken rest
    else none
  | place, c :: rest =>
    if place = .folding ∧ (isBlank c || atBreak c rest) then body form .folding rest
    else if c = form.quote then
      match close? form rest with
      | some (kept, rest) => some (List.replicate kept form.quote, rest)
      | none => push c (body form .between rest)
    else if form.escapes && c = '\\' then body form .escape rest
    else if form.tripled && atBreak c rest then
      if c = '\n' then push c (body form .between rest) else body form .between rest
    else if isPlain c then push c (body form .between rest)
    else none

/-- Reads a text in any form.  A line break right after triple quotes is left
out. -/
def read (s : List Char) : Read (List Char) :=
  match s with
  | '"' :: '"' :: '"' :: rest => body .longBasic .between ((newline? rest).getD rest)
  | '"' :: rest => body .basic .between rest
  | '\'' :: '\'' :: '\'' :: rest => body .longLiteral .between ((newline? rest).getD rest)
  | '\'' :: rest => body .literal .between rest
  | _ => none

/-! ## Writing -/

/-- A digit below 16 in upper case. -/
def hexDigit (n : Nat) : Char := Char.ofNat (if n < 10 then 48 + n else 55 + n)

/-- The escape of a control character, a backslash or a double quote; other
characters stand as themselves. -/
def escape (c : Char) : List Char :=
  if c = '\x08' then ['\\', 'b']
  else if c = '\t' then ['\\', 't']
  else if c = '\n' then ['\\', 'n']
  else if c = '\x0c' then ['\\', 'f']
  else if c = '\r' then ['\\', 'r']
  else if c = '"' then ['\\', '"']
  else if c = '\\' then ['\\', '\\']
  else if isControl c then ['\\', 'u', '0', '0', hexDigit (c.toNat / 16), hexDigit (c.toNat % 16)]
  else [c]

/-- The escaped text on one line. -/
def escapeLine (text : List Char) : List Char := text.flatMap escape

/-- The escaped text on several lines, after `run` double quotes: line breaks
stand as themselves, and so do quotes but for each third of a row. -/
def escapeLines (run : Nat) : List Char → List Char
  | [] => []
  | c :: rest =>
    if c = '"' then
      if run = 2 then '\\' :: '"' :: escapeLines 0 rest else '"' :: escapeLines (run + 1) rest
    else if c = '\n' then '\n' :: escapeLines 0 rest
    else escape c ++ escapeLines 0 rest

/-- Whether a character stands three times in a row in a text that follows `run`
of them. -/
def hasTriple (q : Char) (run : Nat) : List Char → Bool
  | [] => false
  | c :: rest => if c = q then run = 2 || hasTriple q (run + 1) rest else hasTriple q 0 rest

/-- Whether a text has a control character other than the tab and the line break. -/
def hasControl (text : List Char) : Bool :=
  text.any fun c => isControl c && c != '\t' && c != '\n'

/-- What is written in a form: quotes around the content, and a line break before
it if it is to stand on several lines. -/
def enclose (form : Form) (lines : Bool) (content : List Char) : List Char :=
  form.quotes ++ (if lines then ['\n'] else []) ++ content ++ form.quotes

/-- The form that a text is written in, the plainest first.  A tab asks for none:
between double quotes it is written as an escape, and between single quotes it
stands as itself. -/
def formOf (text : List Char) : Form :=
  let lines := text.contains '\n'
  let plain := !hasControl text
  if plain && !lines && !text.contains '\\' && !text.contains '"' then .basic
  else if plain && !lines && !text.contains '\'' then .literal
  else if plain && !text.contains '\\' && !hasTriple '"' 0 text then .longBasic
  else if plain && !hasTriple '\'' 0 text then .longLiteral
  else if lines then .longBasic
  else .basic

/-- What is written for a text between the quotes of a form. -/
def contentIn (form : Form) (text : List Char) : List Char :=
  if !form.escapes then text
  else if form.tripled then escapeLines 0 text
  else escapeLine text

/-- **Writes a text.** -/
def write (text : List Char) : List Char :=
  let form := formOf text
  enclose form (form.tripled && text.contains '\n') (contentIn form text)

end ScopeLint.Toml.Text
