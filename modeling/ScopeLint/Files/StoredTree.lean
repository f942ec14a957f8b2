import ScopeLint.Files.FileTree
import ScopeLint.Syntax.Program
import ScopeLint.Syntax.RowText

/-!
# Stored syntax trees

A parser leaves its trees beside the sources: the tree of `a.js` in `a.js.tree`, and
that of its respelled text in `a.js.respelled.tree`.  Together the stored trees
answer for a parser.  A text for which none is stored is refused at its first
character.
-/

namespace ScopeLint

open Syntax (Grammar Node)

namespace StoredTree

/-- The tree stored in a file for a text. -/
def at? (items : List FileTree) (name : String) (text : String) : Option Node := do
  let item ← items.find? (·.name == name)
  let content ←
    match item with
    | .file _ content => Utf8.decode? content
    | .directory .. => none
  Syntax.Table.tree? (Source.ofText text) (← Syntax.Table.ofText? (String.ofList content))

/-- The trees stored for the text of a file, which stands among other items. -/
def forText (items : List FileTree) (name text : String) : List (String × Node) :=
  match at? items (name ++ ".tree") text with
  | none => []
  | some tree =>
    let source := Source.ofText text
    let respelled? := do
      let bytes ← Syntax.Respelling.respell? source (Syntax.Respelling.starts tree source)
      let respelled := String.ofList (← Utf8.decode? bytes)
      some (respelled, ← at? items (name ++ ".respelled.tree") respelled)
    (text, tree) :: respelled?.toList

mutual

/-- The trees stored for a file, or for the files in a directory, that stands among
other items. -/
def within (among : List FileTree) : FileTree → List (String × Node)
  | .file name content =>
    match Utf8.decode? content with
    | some text => forText among name (String.ofList text)
    | none => []
  | .directory _ items => withinAll items items

/-- The trees stored for the files of a list. -/
def withinAll (among : List FileTree) : List FileTree → List (String × Node)
  | [] => []
  | item :: rest => within among item ++ withinAll among rest

end

/-- The tree of a text that cannot be read. -/
def refusal (text : String) : Node :=
  .node
    { id := 0, kind := .error, span := ⟨0, (Source.ofText text).length⟩, start := ⟨0, 0⟩
      named := true, missing := false, hasError := true, fields := [] }
    []

/-- **The parser that the trees stored below a directory stand for.** -/
def grammar (files : FileTree) : Grammar :=
  let trees := within [] files
  fun text => ((trees.find? (·.1 == text)).map (·.2)).getD (refusal text)

end StoredTree

end ScopeLint
