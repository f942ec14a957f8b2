import ScopeLint.Files.Path

/-!
# File trees

Files with their octets, and directories with what they hold.
-/

namespace ScopeLint

/-- A file or a directory, with its name. -/
inductive FileTree where
  /-- A file. -/
  | file (name : String) (content : List UInt8)
  /-- A directory. -/
  | directory (name : String) (items : List FileTree)
  deriving Repr, Inhabited

namespace FileTree

/-- The name of a file or directory. -/
def name : FileTree → String
  | file name _ | directory name _ => name

/-- Whether it is a directory. -/
def isDirectory : FileTree → Bool
  | file .. => false
  | directory .. => true

/-- What a directory holds. -/
def items : FileTree → List FileTree
  | file .. => []
  | directory _ items => items

/-- The item of a name. -/
def item? (tree : FileTree) (name : String) : Option FileTree :=
  tree.items.find? (·.name == name)

/-! ## Building -/

/-- Puts a file or directory into a list, for any item of its name. -/
def place (item : FileTree) : List FileTree → List FileTree
  | [] => [item]
  | other :: rest =>
    if other.name = item.name then item :: rest else other :: place item rest

/-- Makes the directories on a way into a list of items, and changes what the
last of them holds. -/
def alterBelow (change : List FileTree → List FileTree) :
    List String → List FileTree → List FileTree
  | [], items => change items
  | name :: way, items =>
    let held := ((items.find? (·.name == name)).map FileTree.items).getD []
    place (directory name (alterBelow change way held)) items

/-- The names on a path below the top directory. -/
def namesOf (path : Path) : List String :=
  path.components.filterMap fun
    | .name s => some s
    | _ => none

/-- Makes a directory and those it lies in. -/
def addDirectory (items : List FileTree) (path : Path) : List FileTree :=
  alterBelow id (namesOf path) items

/-- Makes a file and the directories it lies in. -/
def addFile (items : List FileTree) (path : Path) (content : List UInt8) : List FileTree :=
  match (namesOf path).reverse with
  | [] => items
  | name :: way => alterBelow (place (file name content)) way.reverse items

/-- The tree with a file in the directory that names lead to. -/
def withFile (tree : FileTree) (names : List String) (name : String) (content : List UInt8) :
    FileTree :=
  directory tree.name (alterBelow (place (file name content)) names tree.items)

/-! ## Contents -/

/-- What is in the file of a name in a directory, if there is one. -/
def contentOf? (tree : FileTree) (name : String) : Option (List UInt8) :=
  match tree.item? name with
  | some (file _ content) => some content
  | _ => none

end FileTree

end ScopeLint
