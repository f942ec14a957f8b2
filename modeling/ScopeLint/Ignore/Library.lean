import ScopeLint.Config.Settings
import ScopeLint.Files.FileSystem

/-!
# The files to lint

A file is linted at its own path, whatever its name.  A directory is walked for the
files with the configured extensions, under a filter of its own: what its ignore files
say, directories of dependencies and of build results, generated programs, and what
the user excludes.

What reads patterns and walks directories is a parameter.
-/

namespace ScopeLint

/-- What patterns decide about a path. -/
inductive Verdict where
  /-- The path is passed over. -/
  | ignored
  /-- The path is kept, whatever other patterns say. -/
  | kept
  deriving DecidableEq, Repr, Inhabited

/-- What stands at the path of an entry. -/
inductive EntryKind where
  | file
  | directory
  deriving DecidableEq, Repr, Inhabited

/-- What a file or directory is. -/
def EntryKind.of (tree : FileTree) : EntryKind := if tree.isDirectory then directory else file

/-- An entry that a walk yields. -/
structure WalkEntry where
  path : Path
  /-- What stands there; nothing does at an entry for the standard input. -/
  kind : Option EntryKind
  deriving DecidableEq, Repr, Inhabited

/-- The entry of a file or directory at a path. -/
def WalkEntry.of (path : Path) (tree : FileTree) : WalkEntry := ⟨path, some (.of tree)⟩

/-- **What reads patterns and walks directories.**  A builder takes in ignore files and
lines of patterns for what is below a directory; from it a matcher is built, which
decides about paths. -/
structure IgnoreLibrary where
  Builder : Type
  Matcher : Type
  /-- A builder for what is below a directory. -/
  new : Path → Builder
  /-- Takes in the lines of an ignore file, from what is in it if it can be read. -/
  addFile : Option (List UInt8) → Builder → Builder
  /-- Takes in a line, unless it is malformed. -/
  addLine : String → Builder → Option Builder
  /-- The matcher of a builder, unless it cannot be built. -/
  build : Builder → Option Matcher
  /-- The matcher that decides nothing. -/
  empty : Matcher
  /-- What a matcher decides about a path, of a directory or not. -/
  matched : Matcher → Path → Bool → Option Verdict
  /-- The entries at and below a path, with the failures to reach some.  Hidden names are
  passed over, and so is what ignore files say or the given filter does not accept; a
  directory that is passed over is not entered. -/
  walk : FileSystem → Path → (WalkEntry → Bool) → List (Except ReadFault WalkEntry)

namespace IgnoreLibrary

/-- The patterns for what is no program of the user's own. -/
def defaultLines : List String :=
  ["node_modules/", "bower_components/", "vendor/", "dist/", "build/", "out/", "coverage/",
    ".next/", ".nuxt/", ".cache/", ".git/", "*.min.js", "*.bundle.js", "*.map"]

variable (library : IgnoreLibrary)

/-- Takes in a line; a malformed one is passed over. -/
def addWellFormed (builder : library.Builder) (line : String) : library.Builder :=
  (library.addLine line builder).getD builder

/-- The builder of the filter of a directory: its ignore files, of which `contentOf?` gives
what is in them, then the default patterns, then those of the user's. -/
def filterBuilder (root : Path) (contentOf? : String → Option (List UInt8))
    (exclude : List String) : library.Builder :=
  let builder := library.addFile (contentOf? ".gitignore") (library.new root)
  let builder := library.addFile (contentOf? ".ignore") builder
  (defaultLines ++ exclude).foldl library.addWellFormed builder

/-- The filter of a directory.  If it cannot be built, it decides nothing. -/
def filter (root : Path) (contentOf? : String → Option (List UInt8)) (exclude : List String) :
    library.Matcher :=
  (library.build (library.filterBuilder root contentOf? exclude)).getD library.empty

/-- Whether a filter passes over a path. -/
def ignores (filter : library.Matcher) (path : Path) (isDirectory : Bool) : Bool :=
  library.matched filter path isDirectory = some .ignored

end IgnoreLibrary

/-- What is in the file of a name in the directory at a path. -/
def FileSystem.contentIn? (files : FileSystem) (path : Path) (name : String) :
    Option (List UInt8) :=
  (files.read (path.join name)).toOption

/-- Whether a path is one of a file to lint, by its extension. -/
def Settings.wants (settings : Settings) (path : Path) : Bool :=
  path.extension?.any settings.handles

/-- **The files to lint at a path**: a file itself, whatever its name, or the
files below a directory in order. -/
def Settings.collect (settings : Settings) (library : IgnoreLibrary) (files : FileSystem)
    (root : Path) : List Path :=
  if files.isFile root then [root]
  else
    let filter := library.filter root (files.contentIn? root) settings.exclude
    let entries := (library.walk files root fun entry =>
      !library.ignores filter entry.path (entry.kind = some .directory)).filterMap Except.toOption
    Path.sort (((entries.filter (·.kind = some .file)).map (·.path)).filter settings.wants)

end ScopeLint
