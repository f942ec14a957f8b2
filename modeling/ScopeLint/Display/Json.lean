import ScopeLint.Lint.Summary

/-!
# JSON

The results of a run as JSON, for other programs: two spaces for each level, one
value to a line, and the names of an object in order.
-/

namespace ScopeLint

/-- A JSON value. -/
inductive JsonValue where
  | null
  | bool (b : Bool)
  | number (n : Nat)
  | text (s : String)
  | list (items : List JsonValue)
  /-- Named values. -/
  | object (entries : List (String × JsonValue))
  deriving Repr, Inhabited

namespace JsonValue

/-- A digit below 16 in lower case. -/
def hexDigit (n : Nat) : Char := Char.ofNat (if n < 10 then 48 + n else 87 + n)

/-- How a character is written in a text. -/
def escape (c : Char) : List Char :=
  if c = '"' then ['\\', '"']
  else if c = '\\' then ['\\', '\\']
  else if c = '\x08' then ['\\', 'b']
  else if c = '\t' then ['\\', 't']
  else if c = '\n' then ['\\', 'n']
  else if c = '\x0c' then ['\\', 'f']
  else if c = '\r' then ['\\', 'r']
  else if c.toNat < 0x20 then
    ['\\', 'u', '0', '0', hexDigit (c.toNat / 16), hexDigit (c.toNat % 16)]
  else [c]

/-- A text between quotes. -/
def quote (s : String) : String := String.ofList (['"'] ++ s.toList.flatMap escape ++ ['"'])

/-- The start of a line at a level. -/
def indent (level : Nat) : String := "".pushn ' ' (2 * level)

/-- Written items between brackets, one to a line; the brackets alone when there
are none. -/
def enclose (opening closing : String) (level : Nat) (items : List String) : String :=
  if items.isEmpty then opening ++ closing
  else
    opening ++ "\n" ++ ",\n".intercalate (items.map (indent (level + 1) ++ ·)) ++ "\n" ++
      indent level ++ closing

mutual

/-- A value at a level. -/
def write (level : Nat) : JsonValue → String
  | null => "null"
  | bool b => if b then "true" else "false"
  | number n => toString n
  | text s => quote s
  | list items => enclose "[" "]" level (writeItems (level + 1) items)
  | object entries => enclose "\x7b" "\x7d" level (writeEntries (level + 1) entries)

/-- The values of a list, each at a level. -/
def writeItems (level : Nat) : List JsonValue → List String
  | [] => []
  | item :: rest => write level item :: writeItems level rest

/-- The named values of an object, each at a level. -/
def writeEntries (level : Nat) : List (String × JsonValue) → List String
  | [] => []
  | entry :: rest => writeEntry level entry :: writeEntries level rest

/-- A named value at a level. -/
def writeEntry (level : Nat) : String × JsonValue → String
  | (name, v) => quote name ++ ": " ++ write level v

end

/-! ## Results -/

/-- A text or nothing. -/
def optional : Option String → JsonValue
  | some s => text s
  | none => null

/-- A diagnostic. -/
def ofDiagnostic (d : Diagnostic) : JsonValue :=
  object [("column", number d.column), ("endOffset", number d.stop), ("fatal", bool d.fatal),
    ("line", number d.line), ("message", text d.message), ("nodeKind", optional d.nodeKind),
    ("offset", number d.offset), ("ruleId", optional d.rule), ("severity", text d.severity.name)]

/-- The report of a file with its counts. -/
def ofReport (report : FileReport) : JsonValue :=
  object [("errorCount", number report.errorCount), ("fatalErrorCount", number report.fatalCount),
    ("filePath", text report.path), ("messages", list (report.messages.map ofDiagnostic)),
    ("warningCount", number report.warningCount)]

/-- A rule with its severity. -/
def ofRule (info : RuleInfo) (severity : Severity) : JsonValue :=
  object [("meta", object [("category", text info.category.name),
      ("description", text info.description), ("name", text info.name),
      ("recommended", bool info.recommended)]),
    ("severity", text severity.name)]

end JsonValue

end ScopeLint
