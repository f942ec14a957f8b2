import ScopeLint.Ignore.Level

/-!
# Walks

A walk of a directory passes over hidden names, over what the given filter does not
accept, and over what the ignore files in the directories around an entry ignore; what
those keep is not passed over for being hidden.  A directory that is passed over is
not entered.

Paths are matched as they are written, and every path of a walk begins with its
root as it was given.  From the directories above the root an entry is seen at its
path from the top directory.
-/

namespace ScopeLint

/-- A walk of the files below a directory. -/
structure FileWalk where
  files : FileSystem
  /-- The directory to walk, as it was given. -/
  root : Path
  /-- Its path from the top directory. -/
  place : Path
  /-- The directories above it. -/
  above : List Level
  /-- The given filter. -/
  accepts : WalkEntry → Bool

namespace FileWalk

/-- The path of an entry from the top directory. -/
def placeOf (walk : FileWalk) (path : Path) : Path :=
  walk.place.join <|
    if walk.root.isHere then path else (path.without (walk.root.without "./")).without "/"

/-- The levels around an entry at a path, those of the walk before those above it. -/
def levelsFor (walk : FileWalk) (levels : List Level) (path : Path) : List (Level × Path) :=
  let path := path.without "./"
  levels.map (·, path) ++ walk.above.map (·, walk.placeOf path)

/-- Whether an entry at a path is passed over. -/
def skips (walk : FileWalk) (levels : List Level) (path : Path) (tree : FileTree) : Bool :=
  (match Level.verdict? (walk.levelsFor levels path) tree.isDirectory with
    | some .ignored => true
    | some .kept => false
    | none => Path.isHidden tree.name) ||
  !walk.accepts (.of path tree)

mutual

/-- The entries at and below an item of the directory at a path. -/
def entriesIn (walk : FileWalk) (levels : List Level) (path : Path) : FileTree → List WalkEntry
  | .file name content =>
    let path := path.join name
    if walk.skips levels path (.file name content) then []
    else [.of path (.file name content)]
  | .directory name items =>
    let path := path.join name
    if walk.skips levels path (.directory name items) then []
    else
      let level := Level.ofDirectory walk.files path (.directory name items)
      .of path (.directory name items) :: entriesInAll walk (level :: levels) path items

/-- The entries at and below some items. -/
def entriesInAll (walk : FileWalk) (levels : List Level) (path : Path) :
    List FileTree → List WalkEntry
  | [] => []
  | item :: rest => entriesIn walk levels path item ++ entriesInAll walk levels path rest

end

/-- The entries at and below a directory, which itself is not passed over. -/
def entries (walk : FileWalk) (here : FileTree) : List WalkEntry :=
  .of walk.root here ::
    walk.entriesInAll [Level.ofDirectory walk.files walk.root here] walk.root here.items

/-- The walk of a directory at a path, with the directories that it lies in. -/
def ofDirectory (files : FileSystem) (root : Path) (here : FileTree) (above : List FileTree)
    (accepts : WalkEntry → Bool) : FileWalk where
  files
  root
  place := FileSystem.placeOf (here :: above)
  above := Level.onWay files above
  accepts

/-- **The entries at and below a path.** -/
def run (files : FileSystem) (root : Path) (accepts : WalkEntry → Bool) :
    List (Except ReadFault WalkEntry) :=
  if root.isInput then [.ok ⟨root, none⟩]
  else
    match files.way root with
    | .ok (here :: above) => ((ofDirectory files root here above accepts).entries here).map .ok
    | .ok [] => []
    | .error fault => [.error fault]

end FileWalk

end ScopeLint
