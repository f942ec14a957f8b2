import ScopeLint.Ignore.Glob
import ScopeLint.Ignore.Library
import ScopeLint.Text.Lines
import ScopeLint.Text.WhiteSpace

/-!
# Ignore patterns

A line of an ignore file is a pattern: a glob that ignores the paths it matches
or, after an exclamation mark, keeps them.  A pattern without a slash matches at
any depth, and one with a slash at its end matches directories only.  Of several
patterns that match a path the last one decides.  The patterns of a directory are
matched against the part of a path below it.
-/

namespace ScopeLint

/-- A pattern. -/
structure Pattern where
  /-- The glob that paths are matched against. -/
  glob : Glob
  /-- What the pattern decides. -/
  verdict : Verdict
  /-- Whether only directories match. -/
  onlyDirectories : Bool
  deriving Repr, Inhabited

namespace Pattern

/-- The text before a slash at its end, without a backslash before that slash. -/
def dropSlash (text : List Char) : List Char :=
  match text.reverse with
  | '/' :: '\\' :: rest => rest.reverse
  | '/' :: rest => rest.reverse
  | _ => text

/-- The glob of a pattern as it is matched: at any depth when neither a slash at
the head anchors it nor one stands in it, and below a directory only when it ends
with two stars. -/
def expand (anchored : Bool) (text : List Char) : List Char :=
  let text :=
    if anchored || text.contains '/' || text = "**".toList then text else "**/".toList ++ text
  if "/**".toList.isSuffixOf text then text ++ "/*".toList else text

/-- What a sign at the head of a line says, whether a slash after it anchors the
pattern, and the text after both. -/
def splitHead (line : List Char) : Verdict × Bool × List Char :=
  match line with
  | '\\' :: '!' :: rest => (.ignored, false, '!' :: rest)
  | '\\' :: '#' :: rest => (.ignored, false, '#' :: rest)
  | '!' :: '/' :: rest => (.kept, true, rest)
  | '!' :: rest => (.kept, false, rest)
  | '/' :: rest => (.ignored, true, rest)
  | _ => (.ignored, false, line)

/-- A line without white space at its end, unless a backslash stands before the last
of it. -/
def trim (line : List Char) : List Char :=
  if "\\ ".toList.isSuffixOf line then line else WhiteSpace.trimEnd line

/-- Whether a line says nothing, as comments and blank lines do. -/
def isSilent (line : List Char) : Bool := line.head? = some '#' || (trim line).isEmpty

/-- The pattern of a line.  None for lines that say nothing and malformed globs. -/
def ofLine? (line : List Char) : Option Pattern :=
  if isSilent line then none
  else
    let (verdict, anchored, text) := splitHead (trim line)
    let body := dropSlash text
    (Glob.ofText? (expand anchored body)).map fun glob =>
      ⟨glob, verdict, text.getLast? = some '/'⟩

/-- Whether a pattern matches a path. -/
def matchesPath (pattern : Pattern) (path : List UInt8) (isDirectory : Bool) : Bool :=
  (!pattern.onlyDirectories || isDirectory) && pattern.glob.matchesPath path

/-- What some patterns decide about a path. -/
def decide (patterns : List Pattern) (path : List UInt8) (isDirectory : Bool) : Option Verdict :=
  (patterns.reverse.find? (·.matchesPath path isDirectory)).map (·.verdict)

/-- The patterns of some lines. -/
def ofLines (lines : List (List Char)) : List Pattern := lines.filterMap ofLine?

/-- **The patterns of an ignore file.**  Byte order marks at its head are left
out. -/
def ofFile (content : List UInt8) : List Pattern :=
  match Lines.ofFile content with
  | [] => []
  | line :: lines => ofLines (line.dropWhile (· = '\ufeff') :: lines)

/-- The patterns of an ignore file, from what is in it if it can be read. -/
def ofContent (content? : Option (List UInt8)) : List Pattern := content?.elim [] ofFile

end Pattern

/-! ## Patterns of a directory -/

/-- Some patterns for what lies below a directory. -/
structure PatternSet where
  /-- The directory, as the paths below it are written. -/
  root : Path
  /-- The patterns, of which the last that matches decides. -/
  patterns : List Pattern
  deriving Repr, Inhabited

namespace PatternSet

/-- Takes in an ignore file. -/
def addFile (content? : Option (List UInt8)) (set : PatternSet) : PatternSet :=
  { set with patterns := set.patterns ++ Pattern.ofContent content? }

/-- Takes in a line, unless its glob is malformed. -/
def addLine (line : String) (set : PatternSet) : Option PatternSet :=
  if Pattern.isSilent line.toList then some set
  else
    (Pattern.ofLine? line.toList).map fun pattern =>
      { set with patterns := set.patterns ++ [pattern] }

/-- The set itself, unless the glob of a pattern nests too deeply.  No set is refused for its
size, as others that read such patterns do. -/
def build (set : PatternSet) : Option PatternSet :=
  if set.patterns.all (·.glob.depth ≤ Glob.maxDepth) then some set else none

/-- The patterns in an ignore file; none of them counts if they cannot be built. -/
def ofContent (root : Path) (content? : Option (List UInt8)) : PatternSet :=
  (build ⟨root, Pattern.ofContent content?⟩).getD ⟨root, []⟩

/-- What patterns decide about a path. -/
def verdict? (set : PatternSet) (path : Path) (isDirectory : Bool) : Option Verdict :=
  Pattern.decide set.patterns (Utf8.encode (path.below set.root).toList) isDirectory

end PatternSet

end ScopeLint
