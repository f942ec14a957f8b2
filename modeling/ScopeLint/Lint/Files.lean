import ScopeLint.Files.FileSystem
import ScopeLint.Lint.Linter
import ScopeLint.Lint.Summary

/-!
# Linting files

Each file is linted on its own, as a module or script by its extension where that
decides.  A file that cannot be read has that failure as its only diagnostic.
-/

namespace ScopeLint

open Syntax (Grammar SourceType)

/-- What is told about a run while it goes on. -/
inductive Progress where
  /-- A run over a number of files begins. -/
  | started (total : Nat)
  /-- A file is done, as the `count`-th. -/
  | linted (count : Nat) (path : Path)
  /-- The run is over. -/
  | finished
  deriving DecidableEq, Repr

namespace Linter

/-- The report of the file at a path. -/
def lintFile (linter : Linter) (grammar : Grammar) (files : FileSystem) (path : Path) :
    FileReport :=
  let sourceType := SourceType.ofExtension (Path.extension? path) linter.settings.sourceType
  match files.readText path with
  | .ok text => ⟨path, linter.verifyAs grammar text sourceType⟩
  | .error fault => ⟨path, [.ofError (.unreadable fault.message)]⟩

/-- **The reports of the files at some paths**, in the order of the paths. -/
def lintFiles (linter : Linter) (grammar : Grammar) (files : FileSystem) (paths : List Path) :
    List FileReport :=
  paths.map (linter.lintFile grammar files)

/-- What is told about a run over some paths. -/
def progress (paths : List Path) : List Progress :=
  [.started paths.length] ++ (paths.zipIdx.map fun (path, i) => .linted (i + 1) path) ++ [.finished]

end Linter

end ScopeLint
