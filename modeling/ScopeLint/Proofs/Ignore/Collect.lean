import ScopeLint.Proofs.Files.PathOrder
import ScopeLint.Proofs.Ignore.Laws

/-! # What is collected at a path

At a file its own path is collected (`Settings.collect_file`).  At a directory the files of a walk
are, which is told to accept what the filter of the directory does not pass over, and of them
those with a configured extension (`Settings.mem_collect`).  Where the walk yields only what is
there, each of them goes on with names from the path that it is collected at
(`Settings.found_collect`).
-/

namespace ScopeLint

/-! ### What is at the path -/

namespace FileSystem

variable {files : FileSystem} {root : Path} {here : FileTree} {above : List FileTree}

/-- Something is at a path that leads along a way. -/
theorem contains_iff : files.contains root = true ↔
    ∃ here above, files.way root = .ok (here :: above) := by
  rw [contains, lookup]
  constructor
  · intro h
    split at h
    · exact ⟨_, _, ‹_›⟩
    · cases h
    · cases h
  · rintro ⟨here, above, hway⟩
    rw [hway]
    rfl

variable (hway : files.way root = .ok (here :: above))
include hway

theorem lookup_of_way : files.lookup root = .ok here := by rw [lookup, hway]

theorem wellNamed_here (hfiles : files.top.WellNamed) : here.WellNamed :=
  wellNamed_of_way hfiles hway here List.mem_cons_self

theorem isFile_of_way : files.isFile root = !here.isDirectory := by
  rw [isFile, files.lookup_of_way hway]
  rfl

end FileSystem

namespace Settings

variable {settings : Settings} {library : IgnoreLibrary} {files : FileSystem} {root p : Path}
  {here : FileTree} {above : List FileTree}

/-! ### Walks of directories -/

/-- What a walk of a directory is told to accept. -/
def accepts (settings : Settings) (library : IgnoreLibrary) (files : FileSystem) (root : Path)
    (entry : WalkEntry) : Bool :=
  !library.ignores (library.filter root (files.contentIn? root) settings.exclude) entry.path
    (entry.kind = some .directory)

/-- What the walk of a directory yields. -/
def found (settings : Settings) (library : IgnoreLibrary) (files : FileSystem) (root : Path) :
    List WalkEntry :=
  (library.walk files root (settings.accepts library files root)).filterMap Except.toOption

theorem mem_found {entry : WalkEntry} : entry ∈ settings.found library files root ↔
    .ok entry ∈ library.walk files root (settings.accepts library files root) := by
  rw [found, List.mem_filterMap]
  constructor
  · rintro ⟨answer, hanswer, hentry⟩
    cases answer with
    | error => cases hentry
    | ok found => exact Option.some.inj hentry ▸ hanswer
  · exact fun h => ⟨_, h, rfl⟩

/-! ### What is collected -/

section

variable (hway : files.way root = .ok (here :: above))
include hway

/-- A file is collected itself, whatever its name. -/
theorem collect_file (hhere : here.isDirectory = false) :
    settings.collect library files root = [root] := by
  rw [collect, FileSystem.isFile_of_way hway, hhere, if_pos (by decide)]

variable (hhere : here.isDirectory = true)
include hhere

theorem collect_eq : settings.collect library files root =
    Path.sort ((((settings.found library files root).filter (·.kind = some .file)).map
      (·.path)).filter settings.wants) := by
  rw [collect, FileSystem.isFile_of_way hway, hhere, if_neg (by decide)]
  rfl

theorem mem_collect : p ∈ settings.collect library files root ↔ settings.wants p = true ∧
    ∃ entry ∈ settings.found library files root, entry.kind = some .file ∧ entry.path = p := by
  rw [collect_eq hway hhere, Path.mem_sort, List.mem_filter, List.mem_map, and_comm]
  simp only [List.mem_filter, decide_eq_true_eq, and_assoc]

end

/-- **What is collected at a path is found from the path**, if walks yield only what is there. -/
theorem found_collect (hwalks : library.WalksBelow) (hfiles : files.top.WellNamed)
    (hroot : files.contains root = true) (hp : p ∈ settings.collect library files root) :
    files.FoundFrom root p := by
  obtain ⟨here, above, hway⟩ := FileSystem.contains_iff.mp hroot
  cases hhere : here.isDirectory with
  | false =>
    rw [collect_file hway hhere, List.mem_singleton] at hp
    subst hp
    cases here with
    | directory => cases hhere
    | file name content => exact ⟨⟨name, content, above, hway⟩, [], by simp⟩
  | true =>
    obtain ⟨_, entry, hentry, hkind, rfl⟩ := (mem_collect hway hhere).mp hp
    obtain ⟨names, file, hfile, hkindOf, hpath⟩ :=
      hwalks hfiles hway hhere (mem_found.mp hentry) hkind
    have hnamed := FileSystem.wellNamed_here hway hfiles
    have hnames := hnamed.isName_of_descend hfile
    obtain ⟨above', hwayOf⟩ := FileSystem.way_joinAll hnamed hway hfile
    rw [hpath]
    refine ⟨?_, names, Path.components_joinAll (FileSystem.ne_empty_of_way hway) hnames⟩
    cases file with
    | directory => cases hkindOf
    | file name content => exact ⟨name, content, above', hwayOf⟩

end Settings

end ScopeLint
