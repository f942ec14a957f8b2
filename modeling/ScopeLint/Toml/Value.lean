import ScopeLint.Toml.Key
import ScopeLint.Toml.Table
import ScopeLint.Toml.Word

/-!
# Values of TOML documents

A value is a text, a word, an array or an inline table.  Arrays may run over
several lines and inline tables may not; both may be nested up to a limit.
-/

namespace ScopeLint.Toml

/-- Reads the pair of a key and a value that `value` reads. -/
def readPair (value : List Char → Read ConfigValue) (s : List Char) :
    Read (Address × ConfigValue) :=
  match Key.readDotted Key.limit s with
  | some ((way, key), '=' :: rest) =>
    (value (skipBlanks rest)).map fun (v, rest) => ((⟨way, key⟩, v), rest)
  | _ => none

namespace Value

/-- Reads at most `bound` items of an array up to its closing bracket. -/
def readItems (value : List Char → Read ConfigValue) :
    (bound : Nat) → List Char → Read (List ConfigValue)
  | 0, _ => none
  | bound + 1, s =>
    match skipFiller false s with
    | ']' :: rest => some ([], rest)
    | s =>
      match value s with
      | none => none
      | some (v, rest) =>
        match skipFiller false rest with
        | ']' :: rest => some ([v], rest)
        | ',' :: rest => (readItems value bound rest).map fun (vs, rest) => (v :: vs, rest)
        | _ => none

/-- Reads at most `bound` pairs of an inline table up to its closing brace. -/
def readPairs (value : List Char → Read ConfigValue) :
    (bound : Nat) → List Char → Read (List (Address × ConfigValue))
  | 0, _ => none
  | bound + 1, s =>
    match readPair value s with
    | none => none
    | some (pair, rest) =>
      match skipBlanks rest with
      | '\x7d' :: rest => some ([pair], rest)
      | ',' :: rest => (readPairs value bound rest).map fun (pairs, rest) => (pair :: pairs, rest)
      | _ => none

/-- Reads an array after its opening bracket. -/
def readArray (value : List Char → Read ConfigValue) (s : List Char) : Read ConfigValue :=
  (readItems value (s.length + 1) s).map fun (vs, rest) => (.list vs, rest)

/-- Reads an inline table after its opening brace. -/
def readInlineTable (value : List Char → Read ConfigValue) (s : List Char) : Read ConfigValue :=
  match skipBlanks s with
  | '\x7d' :: rest => some (.record [], rest)
  | _ =>
    match readPairs value (s.length + 1) s with
    | none => none
    | some (pairs, rest) =>
      (Entries.assignAll [] pairs).map fun entries => ((Item.table .header entries).toValue, rest)

/-- Reads a text or a word. -/
def readSimple (s : List Char) : Read ConfigValue :=
  match s with
  | '"' :: _ | '\'' :: _ => (Text.read s).map fun (text, rest) => (.text (String.ofList text), rest)
  | _ => Word.read s

/-- **Reads a value** in which at most `depth` arrays and inline tables lie in
each other. -/
def read (depth : Nat) (s : List Char) : Read ConfigValue :=
  match depth, s with
  | depth + 1, '[' :: rest => readArray (read depth) rest
  | depth + 1, '\x7b' :: rest => readInlineTable (read depth) rest
  | _, s => readSimple s

/-- How deep arrays and inline tables may lie in each other. -/
def maxDepth : Nat := 79

end Value

end ScopeLint.Toml
