import ScopeLint.Ignore.Repository

/-!
# The directories around an entry

The ignore files in the directories around an entry decide whether a walk passes
over it: of those of one kind the file of the nearest directory that decides wins.
Files for a version control count only inside a repository, and only up to its
directory.
-/

namespace ScopeLint

/-- A directory around an entry, as the walk sees it. -/
structure Level where
  /-- The patterns that always count. -/
  always : PatternSet
  /-- The patterns that count inside a repository. -/
  versioned : PatternSet
  /-- The patterns of the repository itself. -/
  excluded : PatternSet
  /-- Whether it is the directory of a repository. -/
  isRepository : Bool
  deriving Inhabited

namespace Level

/-- The level of a directory at a path. -/
def ofDirectory (files : FileSystem) (path : Path) (directory : FileTree) : Level where
  always := .ofContent path (directory.contentOf? ".ignore")
  versioned := .ofContent path (directory.contentOf? ".gitignore")
  excluded := .ofContent path (Repository.excludeFile? files directory)
  isRepository := Repository.isAt directory

/-- The levels of the directories on a way, by their paths from the top
directory. -/
def onWay (files : FileSystem) : List FileTree → List Level
  | [] => []
  | directory :: above =>
    ofDirectory files (FileSystem.placeOf (directory :: above)) directory :: onWay files above

/-- What the nearest of some levels decides about an entry, where levels above a
repository may be left out.  Each level comes with the path of the entry as it is
seen from there. -/
def nearest (select : Level → PatternSet) (inRepository isDirectory : Bool) :
    List (Level × Path) → Option Verdict
  | [] => none
  | (level, path) :: above =>
    match (select level).verdict? path isDirectory with
    | some verdict => some verdict
    | none =>
      if inRepository && level.isRepository then none
      else nearest select inRepository isDirectory above

/-- **What the ignore files around an entry decide about it.** -/
def verdict? (levels : List (Level × Path)) (isDirectory : Bool) : Option Verdict :=
  let inRepository (select : Level → PatternSet) : Option Verdict :=
    if levels.any (·.1.isRepository) then nearest select true isDirectory levels else none
  (nearest (·.always) false isDirectory levels).or
    ((inRepository (·.versioned)).or (inRepository (·.excluded)))

end Level

end ScopeLint
