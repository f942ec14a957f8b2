import ScopeLint.Error
import ScopeLint.Files.FileTree
import ScopeLint.Text.Utf8

/-!
# File systems

What a command is run on: all that is below a top directory, and the directory there
that the command runs in.  A path with a slash at its head starts from the top
directory, and any other path from the working directory.
-/

namespace ScopeLint

/-- A file system, as it is seen from a working directory. -/
structure FileSystem where
  /-- The top directory. -/
  top : FileTree
  /-- The names from the top directory to the working directory.  Where they lead
  nowhere, so does every path that starts from there. -/
  place : List String
  deriving Repr, Inhabited

namespace FileSystem

/-- A directory with nothing around it, as the working directory. -/
def ofDirectory (tree : FileTree) : FileSystem := ⟨.directory "" [tree], [tree.name]⟩

instance : Coe FileTree FileSystem := ⟨ofDirectory⟩

/-! ## Looking up -/

/-- Whether a path asks for a directory, by a slash or a dot at its end. -/
def asksDirectory (path : Path) : Bool :=
  match (Path.split path.toList).getLast? with
  | some stretch => stretch = [] || stretch = ['.'] || stretch = ['.', '.']
  | none => false

/-- Follows components from the directory at the head of `way`, which lies in the
next one, and so on up to the top directory, which lies in itself.  What they lead
to comes first of the way to it. -/
def follow (way : List FileTree) : List PathComponent → Except ReadFault (List FileTree)
  | [] => .ok way
  | c :: rest =>
    match way with
    | [] => .error .notFound
    | here :: above =>
      if here.isDirectory then
        match c with
        | .root | .here => follow (here :: above) rest
        | .up => follow (if above.isEmpty then [here] else above) rest
        | .name s =>
          match here.item? s with
          | some item => follow (item :: here :: above) rest
          | none => .error .notFound
      else .error .notDirectory

/-- The components of the directory that a path starts from. -/
def start (files : FileSystem) (path : Path) : List PathComponent :=
  if .root ∈ path.components then [] else files.place.map .name

/-- The components of a path, from the top directory. -/
def fromTop (files : FileSystem) (path : Path) : List PathComponent :=
  files.start path ++ path.components

/-- The file or directory at a path, and behind it those that it lies in, the
nearest first. -/
def way (files : FileSystem) (path : Path) : Except ReadFault (List FileTree) :=
  if path.isEmpty then .error .notFound
  else
    match follow [files.top] (files.fromTop path) with
    | .ok (.file name content :: above) =>
      if asksDirectory path then .error .notDirectory else .ok (.file name content :: above)
    | .ok [] => .error .notFound
    | found => found

/-- The path from the top directory to the first of a way. -/
def placeOf : List FileTree → Path
  | [] | [_] => "/"
  | here :: above => (placeOf above).join here.name

/-- The file or directory at a path. -/
def lookup (files : FileSystem) (path : Path) : Except ReadFault FileTree :=
  match files.way path with
  | .ok (found :: _) => .ok found
  | .ok [] => .error .notFound
  | .error e => .error e

/-- Whether something is at a path. -/
def contains (files : FileSystem) (path : Path) : Bool := (files.lookup path).toOption.isSome

/-- Whether a file is at a path. -/
def isFile (files : FileSystem) (path : Path) : Bool :=
  (files.lookup path).toOption.any (!·.isDirectory)

/-- The octets of the file at a path. -/
def read (files : FileSystem) (path : Path) : Except ReadFault (List UInt8) :=
  match files.lookup path with
  | .ok (.file _ content) => .ok content
  | .ok (.directory ..) => .error .isDirectory
  | .error e => .error e

/-- The text of the file at a path. -/
def readText (files : FileSystem) (path : Path) : Except ReadFault String :=
  match files.read path with
  | .ok content => (Utf8.decode? content).elim (.error .notText) fun cs => .ok (String.ofList cs)
  | .error e => .error e

/-! ## Writing -/

/-- The names from the top directory to the first of a way. -/
def namesTo : List FileTree → List String
  | [] | [_] => []
  | here :: above => namesTo above ++ [here.name]

/-- The files after some content is written to the file at a path, which is made if it is
not there; the directory that it lies in must be. -/
def write (files : FileSystem) (path : Path) (content : List UInt8) :
    Except ReadFault FileSystem :=
  match files.lookup path, path.components.getLast? with
  | .ok (.directory ..), _ => .error .isDirectory
  | .error .notDirectory, _ => .error .notDirectory
  | _, some (.name name) =>
    match follow [files.top] (files.start path ++ path.components.dropLast) with
    | .ok (.directory here items :: above) =>
      if asksDirectory path then
        .error (if path.toList.getLast? = some '/' then .isDirectory else .notFound)
      else
        let names := namesTo (.directory here items :: above)
        .ok { files with top := files.top.withFile names name content }
    | .ok (.file .. :: _) => .error .notDirectory
    | .ok [] => .error .notFound
    | .error e => .error e
  | _, _ => .error .notFound

end FileSystem

end ScopeLint
