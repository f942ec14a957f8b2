/-!
# Paths

A path is a text whose components are separated by slashes.  Two texts may name
the same components (`a//b` and `a/./b`), and paths are compared by components;
they are shown as they were written.
-/

namespace ScopeLint

/-- A component of a path.  A slash at the head of a path is one, and so is a dot
at its head; dots and empty names elsewhere are none. -/
inductive PathComponent where
  /-- The slash at the head of a path. -/
  | root
  /-- The dot at the head of a path. -/
  | here
  /-- Two dots. -/
  | up
  /-- A name. -/
  | name (s : String)
  deriving DecidableEq, Repr, Inhabited

namespace PathComponent

/-- The place of a component's form in the order of components. -/
def rank : PathComponent → Nat
  | root => 0
  | here => 1
  | up => 2
  | name _ => 3

/-- Components in order: by form, then names by their characters. -/
def before : PathComponent → PathComponent → Bool
  | name s, name t => s < t
  | a, b => a.rank < b.rank

end PathComponent

/-- A path as it was written. -/
abbrev Path := String

namespace Path

/-- The stretches of a text between slashes. -/
def split (text : List Char) : List (List Char) :=
  match text with
  | [] => [[]]
  | c :: rest =>
    if c = '/' then [] :: split rest
    else
      match split rest with
      | first :: others => (c :: first) :: others
      | [] => [[c]]

/-- The component of a stretch between slashes, unless it is none. -/
def component? (stretch : List Char) : Option PathComponent :=
  if stretch = [] ∨ stretch = ['.'] then none
  else if stretch = ['.', '.'] then some .up
  else some (.name (String.ofList stretch))

/-- The components of a path. -/
def components (path : Path) : List PathComponent :=
  let stretches := split path.toList
  let first : List PathComponent :=
    match stretches with
    | ['.'] :: _ => [.here]
    | [] :: _ :: _ => [.root]
    | _ => []
  first ++ stretches.filterMap component?

/-- Lists of components in order, by the first component in which they differ. -/
def componentsBefore : List PathComponent → List PathComponent → Bool
  | _, [] => false
  | [], _ :: _ => true
  | a :: as, b :: bs => a.before b || (!b.before a && componentsBefore as bs)

/-- Whether a path may stand before another in sorted lists. -/
def precedes (p q : Path) : Bool := !componentsBefore q.components p.components

/-- Paths in order; texts of the same components keep the order given. -/
def sort (paths : List Path) : List Path := paths.mergeSort precedes

/-- Leaves out each path with the components of the one before it. -/
def dropRepeated : List Path → List Path
  | [] => []
  | p :: rest => p :: go p rest
where
  /-- Leaves out the paths at the head with the components of `last`. -/
  go (last : Path) : List Path → List Path
    | [] => []
    | p :: rest => if p.components = last.components then go last rest else p :: go p rest

/-- The name that a path ends in. -/
def fileName? (path : Path) : Option String :=
  match path.components.getLast? with
  | some (.name s) => some s
  | _ => none

/-- The extension of a name: what follows its last dot, unless that is its first
character. -/
def extensionOfName? (name : String) : Option String :=
  let reversed := name.toList.reverse
  match reversed.dropWhile (· ≠ '.') with
  | [] | ['.'] => none
  | _ => some (String.ofList (reversed.takeWhile (· ≠ '.')).reverse)

/-- The extension of the name that a path ends in. -/
def extension? (path : Path) : Option String := path.fileName?.bind extensionOfName?

/-- The path of a name below a path. -/
def join (path : Path) (name : String) : Path :=
  if path.isEmpty || path.endsWith "/" then path ++ name else path ++ "/" ++ name

/-- Whether a name is hidden. -/
def isHidden (name : String) : Bool := name.toList.head? = some '.'

/-- Whether a path stands for the standard input, where no files are. -/
def isInput (path : Path) : Bool := path.components = [.name "-"]

/-! ## Parts of a path -/

/-- What follows a text at the head of a path. -/
def after? (head path : Path) : Option Path :=
  if head.toList.isPrefixOf path.toList then some (String.ofList (path.toList.drop head.length))
  else none

/-- A path without a text at its head, where it has it. -/
def without (path head : Path) : Path := (after? head path).getD path

/-- Whether a path is written as the directory that it starts from. -/
def isHere (path : Path) : Bool := path.components = [.here]

/-- The part of a path below a directory, by the way both are written: a dot and
slash at the head of either says nothing, and then the directory must stand at the
head of the path as it is.  A lone name is below any directory. -/
def below (path root : Path) : Path :=
  let path := path.without "./"
  let root := root.without "./"
  if root.isHere || !path.toList.contains '/' then path
  else
    match after? root path with
    | some rest => rest.without "/"
    | none => path

end Path

end ScopeLint
