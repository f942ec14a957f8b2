import ScopeLint.Syntax.Node
import ScopeLint.Text.Alphanumeric

/-!
# Respelling a word that the grammar keeps to itself

The grammar gives `undefined` a kind of its own, so it refuses programs that use
the word where a name must stand.  Such a program is read again with those words
spelled as a plain name of the same length.  This module finds the words
(`starts`) and respells them (`respell?`); since nothing moves, every range of
the new tree is a range of the old text.
-/

namespace ScopeLint.Syntax.Respelling

/-- The word that is respelled. -/
def word : List Char := ['u', 'n', 'd', 'e', 'f', 'i', 'n', 'e', 'd']

/-- The name put in its place. -/
def spelling : List Char := ['_', 'n', 'd', 'e', 'f', 'i', 'n', 'e', 'd']

/-- Whether a character can be part of a name. -/
def isNameChar (c : Char) : Bool := Alphanumeric.isAlphanumeric c || c == '_' || c == '$'

/-- Whether the word stands at the head of a text, preceded by `before`, and no
character on either side makes it part of a longer name. -/
def standsAt (before : Option Char) (text : List Char) : Bool :=
  word.isPrefixOf text && !before.any isNameChar && !(text.drop word.length).head?.any isNameChar

/-- The offsets at which the word stands alone in a text that begins at `offset`
and follows the character `before`. -/
def wordStarts (offset : Nat) (before : Option Char) : List Char → List Nat
  | [] => []
  | c :: rest =>
    let later := wordStarts (offset + Utf8.width c) (some c) rest
    if standsAt before (c :: rest) then offset :: later else later

/-- The words that one node accounts for: inside an error all that stand alone,
and at a leaf for a name the leaf itself. -/
def startsAt (source : Source) (label : Label) (isLeaf : Bool) : List Nat :=
  if label.kind = .error then
    wordStarts label.span.start none (source.textOf label.span)
  else if isLeaf && label.kind.isName && source.textOf label.span == word then
    [label.span.start]
  else
    []

mutual

/-- The words that the nodes of a tree account for. -/
def collect (source : Source) : Node → List Nat
  | .node label children =>
    startsAt source label children.isEmpty ++ collectAll source children

/-- The words that the trees of a list account for. -/
def collectAll (source : Source) : List Node → List Nat
  | [] => []
  | child :: rest => collect source child ++ collectAll source rest

end

/-- Puts a number into an increasing list that does not hold it yet. -/
def insertNew (n : Nat) : List Nat → List Nat
  | [] => [n]
  | m :: rest =>
    if n < m then n :: m :: rest else if n = m then m :: rest else m :: insertNew n rest

/-- The offsets of the words to respell, increasing. -/
def starts (root : Node) (source : Source) : List Nat :=
  (collect source root).foldr insertNew []

/-- The text from the offset `last` on with the word at each offset respelled;
none when the offsets do not cut the text into pieces in order. -/
def respellFrom? (source : Source) (last : Nat) : List Nat → Option (List UInt8)
  | [] => source.cut? last source.length
  | start :: rest => do
    let before ← source.cut? last start
    let after ← respellFrom? source (start + word.length) rest
    return before ++ Utf8.encode spelling ++ after

/-- The text with the word at each offset respelled. -/
def respell? (source : Source) (starts : List Nat) : Option (List UInt8) :=
  respellFrom? source 0 starts

end ScopeLint.Syntax.Respelling
