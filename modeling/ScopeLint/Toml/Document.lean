import ScopeLint.Toml.Value

/-!
# TOML documents

A document is a sequence of statements, each on lines of its own: a pair of a key
and a value, or the header of a table, to which the pairs that follow belong.

All documents are read.  What is written are texts, lists of texts and tables of
these, the tables last.
-/

namespace ScopeLint.Toml

/-- A statement of a document. -/
inductive Statement where
  /-- A key and its value. -/
  | pair (address : Address) (v : ConfigValue)
  /-- The header of a table. -/
  | table (address : Address)
  /-- The header of the next table of a list. -/
  | next (address : Address)
  deriving Repr, Inhabited

namespace Statement

/-- Reads the keys of a header, up to its closing brackets. -/
def readHeader (closing : List Char) (s : List Char) : Read Address :=
  match Key.readDotted Key.limit s with
  | none => none
  | some ((way, key), rest) =>
    if closing.isPrefixOf rest then some (⟨way, key⟩, rest.drop closing.length) else none

/-- Reads a statement. -/
def read (s : List Char) : Read Statement :=
  match s with
  | '[' :: '[' :: rest => (readHeader [']', ']'] rest).map fun (a, rest) => (next a, rest)
  | '[' :: rest => (readHeader [']'] rest).map fun (a, rest) => (table a, rest)
  | _ => (readPair (Value.read Value.maxDepth) s).map fun ((a, v), rest) => (pair a v, rest)

end Statement

namespace Document

/-! ## Reading -/

/-- Reads at most `bound` lines and statements. -/
def readStatements : (bound : Nat) → List Char → Option (List Statement)
  | 0, _ => none
  | _, [] => some []
  | bound + 1, s =>
    match lineEnd? s with
    | some rest => readStatements bound rest
    | none =>
      match Statement.read (skipBlanks s) with
      | none => none
      | some (statement, rest) =>
        match lineEnd? rest with
        | none => none
        | some rest => (readStatements bound rest).map (statement :: ·)

/-- The pairs before the first header, and each header with the pairs after it. -/
def sections : List Statement →
    List (Address × ConfigValue) × List (Bool × Address × List (Address × ConfigValue))
  | [] => ([], [])
  | .pair address v :: rest => ((address, v) :: (sections rest).1, (sections rest).2)
  | .table address :: rest => ([], (false, address, (sections rest).1) :: (sections rest).2)
  | .next address :: rest => ([], (true, address, (sections rest).1) :: (sections rest).2)

/-- The tables that statements fill. -/
def entries? (statements : List Statement) : Option Entries := do
  let (pairs, headed) := sections statements
  let entries ← Entries.assignAll [] pairs
  headed.foldlM (fun entries (repeated, address, pairs) =>
    if repeated then Entries.openNext entries address pairs
    else Entries.openTable entries address pairs) entries

/-- The text after a byte order mark. -/
def dropMark : List Char → List Char
  | '\ufeff' :: rest => rest
  | text => text

/-- **The data of a document**, unless it is not well formed. -/
def read (text : List Char) : Option ConfigValue := do
  let text := dropMark text
  let entries ← entries? (← readStatements (text.length + 1) text)
  return (Item.table .header entries).toValue

/-! ## Writing -/

/-- The writing of a list of texts: one to a line if there are several. -/
def writeTexts : List String → List Char
  | [] => "[]".toList
  | [s] => ['['] ++ Text.write s.toList ++ [']']
  | texts =>
    "[\n".toList ++ texts.flatMap (fun s => "    ".toList ++ Text.write s.toList ++ [',', '\n']) ++
      [']']

/-- The writing of a text or of a list of texts. -/
def writeValue? : ConfigValue → Option (List Char)
  | .text s => some (Text.write s.toList)
  | .list items => (items.mapM ConfigValue.text?).map writeTexts
  | _ => none

/-- The line of a key and the writing of its value. -/
def writeLine (key : String) (value : List Char) : List Char :=
  Key.write key ++ " = ".toList ++ value ++ ['\n']

/-- The lines of keys and their values. -/
def writeLines? : List (String × ConfigValue) → Option (List Char)
  | [] => some []
  | (key, v) :: rest => return writeLine key (← writeValue? v) ++ (← writeLines? rest)

/-- The lines of tables, each behind an empty line. -/
def writeTables? : List (String × ConfigValue) → Option (List Char)
  | [] => some []
  | (key, .record entries) :: rest => do
    let lines ← writeLines? entries
    return "\n[".toList ++ Key.write key ++ "]\n".toList ++ lines ++ (← writeTables? rest)
  | _ => none

/-- **The document of some data**, where they can be written. -/
def write? : ConfigValue → Option (List Char)
  | .record entries =>
    return (← writeLines? (entries.filter (!·.2.isRecord))) ++
      (← writeTables? (entries.filter (·.2.isRecord)))
  | _ => none

end Document

end ScopeLint.Toml
