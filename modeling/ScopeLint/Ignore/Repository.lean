import ScopeLint.Files.FileSystem
import ScopeLint.Ignore.Pattern

/-!
# Repositories

A directory with an entry `.git` or `.jj` is that of a repository.  A repository
has patterns of its own in the file `info/exclude` of its entry `.git`.  Where
that entry is a file, the directory is one of several working directories of a
repository, and the file leads to the place that they share.
-/

namespace ScopeLint.Repository

/-- Whether a directory is that of a repository. -/
def isAt (directory : FileTree) : Bool :=
  (directory.item? ".git").isSome || (directory.item? ".jj").isSome

/-- The place that the working directories of a repository share, from the file in
one of them.  Its first line names a place of its own, and there the first line of
the file `commondir` names the shared one: from that place if it begins with a
dot, and else as it is. -/
def sharedPlace? (files : FileSystem) (content : List UInt8) : Option Path := do
  let own ← Path.after? "gitdir: " (String.ofList (← Lines.first? content))
  let shared ← Lines.first? (← (files.read (Path.join own "commondir")).toOption)
  let shared := String.ofList shared
  return if shared.startsWith "." then Path.join own shared else shared

/-- The file with the patterns of the repository of a directory, if there is
one. -/
def excludeFile? (files : FileSystem) (directory : FileTree) : Option (List UInt8) :=
  match directory.item? ".git" with
  | some (.file _ content) => do
    (files.read (Path.join (← sharedPlace? files content) "info/exclude")).toOption
  | some git => do (← git.item? "info").contentOf? "exclude"
  | none => none

end ScopeLint.Repository
