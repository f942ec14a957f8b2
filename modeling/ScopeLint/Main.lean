import ScopeLint.Command.Run
import ScopeLint.Files.StoredTree

/-!
# The program

Reads the working directory and what else the arguments name, runs the command of the
arguments on them, prints what the run gives, and writes the settings file back if the
run changed it.  What a run does is said by `Command.runArguments`.
-/

namespace ScopeLint

/-- What the entries of a directory hold; links are left out. -/
partial def readEntries (entries : Array IO.FS.DirEntry) : IO (List FileTree) := do
  let items ← entries.toList.mapM fun entry => do
    match (← entry.path.symlinkMetadata).type with
    | .dir => return [.directory entry.fileName (← readEntries (← entry.path.readDir))]
    | .file => return [.file entry.fileName (← IO.FS.readBinFile entry.path).toList]
    | _ => return []
  return items.flatten

/-- Whether an entry decides about what is below its directory. -/
def decidesBelow (entry : IO.FS.DirEntry) : Bool :=
  [".gitignore", ".ignore", ".git"].contains entry.fileName

/-- The names from the top directory to what is at a path. -/
def namesFromTop (path : String) : IO (List String) :=
  return (← IO.FS.realPath path).components.filter (!·.isEmpty)

/-- Reads what is at a path into the items of the top directory; of the directories that
it lies in only the entries that decide about it. -/
def readInto (top : List FileTree) (path : String) : IO (List FileTree) := do
  let names ← namesFromTop path
  let mut top := top
  for depth in [0:names.length] do
    let above := names.take depth
    let entries ← (← IO.FS.realPath ("/" ++ "/".intercalate above)).readDir
    let rules ← readEntries (entries.filter decidesBelow)
    top := FileTree.alterBelow (rules.foldl fun items rule => FileTree.place rule items) above top
  let here ← IO.FS.realPath path
  match (← here.symlinkMetadata).type, names.getLast? with
  | .dir, _ =>
    let items ← readEntries (← here.readDir)
    return FileTree.alterBelow (fun _ => items) names top
  | .file, some name =>
    let content ← IO.FS.readBinFile here
    return FileTree.alterBelow (FileTree.place (.file name content.toList)) names.dropLast top
  | _, _ => return top

/-- Reads what is at some paths, but for those that lead nowhere. -/
def readAll (paths : List String) : IO (List FileTree) :=
  paths.foldlM (fun top path => do try readInto top path catch _ => return top) []

/-- The paths that a command asks for, apart from the working directory. -/
def Command.asksFor : Command → List Path
  | .check options => options.config.toList ++ options.paths
  | .rules config _ => config.toList
  | _ => []

/-- The name of a number of seconds. -/
def secondsText (n : Nat) : String := if n = 1 then "1 second" else s!"{n} seconds"

/-- Prints a text of a run that took some seconds. -/
def printText (seconds : Nat) : Print → IO Unit
  | .lines text => IO.println text
  | .timed text => IO.println (text ++ secondsText seconds)

end ScopeLint

open ScopeLint in
/-- Runs the program. -/
def main (arguments : List String) : IO UInt32 := do
  let asked := ((Command.ofArguments? arguments).map Command.asksFor).getD []
  let top := FileTree.directory "" (← readAll (asked ++ ["."]))
  let files : FileSystem := ⟨top, ← namesFromTop "."⟩
  let bare := Command.asksBare (← IO.getEnv "UNDEFLINT_QUIET")
  let started ← IO.monoMsNow
  let outcome ← IO.lazyPure fun _ =>
    Command.runArguments { files, grammar := StoredTree.grammar top, bare } arguments
  let seconds := ((← IO.monoMsNow) - started) / 1000
  outcome.output.forM (printText seconds)
  outcome.errors.forM IO.eprintln
  match outcome.files.read Settings.fileName with
  | .ok content =>
    if (files.read Settings.fileName).toOption != some content then
      IO.FS.writeBinFile Settings.fileName ⟨content.toArray⟩
  | .error _ => pure ()
  return UInt32.ofNat outcome.status
