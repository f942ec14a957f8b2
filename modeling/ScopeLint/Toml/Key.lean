import ScopeLint.Toml.Text

/-!
# Keys of TOML documents

A key is a bare word or a text on one line; keys joined by dots lead into tables
in tables.
-/

namespace ScopeLint.Toml.Key

/-- Whether a character may stand in a bare key. -/
def isBare (c : Char) : Bool :=
  ('a' ≤ c && c ≤ 'z') || ('A' ≤ c && c ≤ 'Z') || ('0' ≤ c && c ≤ '9') || c == '-' || c == '_'

/-- Reads one key. -/
def read (s : List Char) : Read String :=
  match s with
  | '"' :: rest => (Text.body .basic .between rest).map fun (k, rest) => (String.ofList k, rest)
  | '\'' :: rest => (Text.body .literal .between rest).map fun (k, rest) => (String.ofList k, rest)
  | _ =>
    match s.takeWhile isBare with
    | [] => none
    | k => some (String.ofList k, s.dropWhile isBare)

/-- Reads at most `limit` keys joined by dots, with blanks around each: those
before the last, and the last. -/
def readDotted (limit : Nat) (s : List Char) : Read (List String × String) :=
  match limit with
  | 0 => none
  | limit + 1 =>
    match read (skipBlanks s) with
    | none => none
    | some (k, rest) =>
      match skipBlanks rest with
      | '.' :: more => (readDotted limit more).map fun ((ks, last), rest) => ((k :: ks, last), rest)
      | rest => some (([], k), rest)

/-- The most keys that may be joined. -/
def limit : Nat := 79

/-- The form of a key in quotes: a literal only where a basic text would need an
escape other than that of a tab. -/
def formOf (text : List Char) : Text.Form :=
  let controls := text.any fun c => isControl c && c != '\t'
  if !controls && !text.contains '\'' && (text.contains '\\' || text.contains '"') then .literal
  else .basic

/-- Writes a key, with no more quoting than it needs. -/
def write (key : String) : List Char :=
  let text := key.toList
  if !text.isEmpty && text.all isBare then text
  else Text.enclose (formOf text) false (Text.contentIn (formOf text) text)

end ScopeLint.Toml.Key
