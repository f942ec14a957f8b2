import ScopeLint.Ignore.FileWalk

/-!
# Ignore files as git has them

Patterns and walks as git's ignore files ask for them, as one choice of what reads
patterns and walks directories.
-/

namespace ScopeLint

/-- Patterns and walks as git's ignore files ask for them. -/
def IgnoreLibrary.gitignore : IgnoreLibrary where
  Builder := PatternSet
  Matcher := PatternSet
  new root := ⟨root, []⟩
  addFile := PatternSet.addFile
  addLine := PatternSet.addLine
  build := PatternSet.build
  empty := ⟨"", []⟩
  matched := PatternSet.verdict?
  walk := FileWalk.run

namespace Filter

/-- The filter of a directory at a path, with patterns of the user's. -/
def ofDirectory (root : Path) (directory : FileTree) (exclude : List String) : PatternSet :=
  IgnoreLibrary.gitignore.filter root directory.contentOf? exclude

/-- Whether a filter passes over a path. -/
def ignores (filter : PatternSet) (path : Path) (isDirectory : Bool) : Bool :=
  IgnoreLibrary.gitignore.ignores filter path isDirectory

end Filter

/-- The files to lint at a path, with ignore files as git has them. -/
def Settings.filesAt (settings : Settings) (files : FileSystem) (path : Path) : List Path :=
  settings.collect .gitignore files path

end ScopeLint
