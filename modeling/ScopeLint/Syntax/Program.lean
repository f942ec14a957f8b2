import ScopeLint.Syntax.Respelling
import ScopeLint.Syntax.SourceType

/-!
# Programs

A program is accepted when the parser's tree of its text holds no error, or when
the tree of the respelled text holds none.  A text that is not accepted is
refused at the first bad node of its own tree.
-/

namespace ScopeLint.Syntax

/-- What the parser answers for each text. -/
abbrev Grammar := String → Node

/-- What is wrong at a bad node. -/
inductive Fault where
  /-- The parser supplied a node of a kind. -/
  | missing (kind : Kind)
  /-- A character stands where it cannot. -/
  | unexpected (c : Char)
  /-- The text ends too early. -/
  | unexpectedEnd
  deriving DecidableEq, Repr

/-- The text of a fault. -/
def Fault.message : Fault → String
  | missing kind => s!"Missing {kind.name}"
  | unexpected c => s!"Unexpected token {c}"
  | unexpectedEnd => "Unexpected end of input"

namespace Node

mutual

/-- The first bad node of a tree, a node before those below it.  Only nodes that
are marked as holding an error are entered. -/
def firstBad? : Node → Option Label
  | node label children =>
    if isBad label then some label
    else if label.hasError then firstBadOf? children
    else none

/-- The first bad node of the trees of a list. -/
def firstBadOf? : List Node → Option Label
  | [] => none
  | child :: rest => child.firstBad? <|> firstBadOf? rest

end

end Node

/-- What is wrong at a bad node of a text. -/
def Fault.ofLabel (source : Source) (label : Label) : Fault :=
  if label.missing then .missing label.kind
  else
    match source.textOf label.span with
    | c :: _ => .unexpected c
    | [] => .unexpectedEnd

/-- The failure that a bad node of a text stands for. -/
def errorAt (source : Source) (label : Label) : Error :=
  let position := source.positionOf label.span.start label.start
  .badProgram (position.line + 1) (position.column + 1) (Fault.ofLabel source label).message

/-- An accepted program. -/
structure Program where
  /-- The octets of its text. -/
  source : Source
  /-- Its syntax tree, of the text or of the respelled text. -/
  root : Node
  /-- How its declarations are scoped. -/
  sourceType : SourceType

namespace Program

/-- The tree of the respelled text, when there is something to respell and that
helps. -/
def reread? (grammar : Grammar) (source : Source) (first : Node) : Option Node := do
  let starts := Respelling.starts first source
  if starts.isEmpty then none
  let bytes ← Respelling.respell? source starts
  let second := grammar (String.ofList (← Utf8.decode? bytes))
  if second.label.hasError then none else some second

/-- The tree that stands for a text: that of the respelled text where the text's
own holds an error and respelling helps, else its own. -/
def treeOf (grammar : Grammar) (text : String) : Node :=
  let first := grammar text
  if first.label.hasError then (reread? grammar (Source.ofText text) first).getD first else first

/-- The program of a text, or the first thing wrong with it. -/
def ofText (grammar : Grammar) (sourceType : SourceType) (text : String) :
    Except Error Program :=
  let source := Source.ofText text
  let root := treeOf grammar text
  match root.firstBad? with
  | some label => .error (errorAt source label)
  | none => .ok { source, root, sourceType }

end Program

end ScopeLint.Syntax
