import Mathlib.Data.List.Sort
import ScopeLint.Command.Run
import ScopeLint.Proofs.Ignore.Collect
import ScopeLint.Proofs.Ignore.FileWalk
import ScopeLint.Proofs.Lint.Totals

/-! # The files that a run covers

The files to lint at some paths are found path by path, sorted by the components of their
paths, and linted once for each list of components (`Command.covered_once`).  So the totals
of a run do not depend on how often its arguments cover a file.  A file is reported twice
only by paths with different components: one of them goes up, or they open differently, with
a slash, a dot or neither.  A dot for the directory and the name of a file in it are such
arguments (`Command.dot_covers_again`).  Of the walks of directories it is asked that they yield
only what is there.
-/

namespace ScopeLint

open Syntax (Grammar)
open FileTree (WellNamed)

/-! ### Reports of one file -/

theorem Summary.ofReports_congr {reports reports' : List FileReport}
    (h : reports.map (·.messages) = reports'.map (·.messages)) :
    ofReports reports = ofReports reports' := by
  have hcount : ∀ count : List Diagnostic → Nat,
      (reports.map fun report => count report.messages) =
        reports'.map fun report => count report.messages := by
    intro count
    simpa only [List.map_map, Function.comp_def] using congrArg (List.map count) h
  have hlength : reports.length = reports'.length := by
    simpa only [List.length_map] using congrArg List.length h
  have herrors : reports.map (·.errorCount) = reports'.map (·.errorCount) := hcount _
  have hwarnings : reports.map (·.warningCount) = reports'.map (·.warningCount) := hcount _
  have hfatal : reports.map (·.fatalCount) = reports'.map (·.fatalCount) := hcount _
  rw [ofReports_eq, ofReports_eq, hlength, herrors, hwarnings, hfatal]

namespace Linter

variable {linter : Linter} {grammar : Grammar} {files : FileSystem}

theorem path_lintFile (path : Path) : (linter.lintFile grammar files path).path = path := by
  unfold lintFile
  simp only
  split <;> rfl

theorem pairwise_lintFiles {paths : List Path} {related : Path → Path → Prop} :
    ((linter.lintFiles grammar files paths).Pairwise fun r s => related r.path s.path) ↔
      paths.Pairwise related := by
  rw [lintFiles, List.pairwise_map]
  simp only [path_lintFile]

/-- The messages on a file depend on the components of its path alone. -/
theorem messages_lintFile {p q : Path} (hp : files.LeadsToFile p) (hq : files.LeadsToFile q)
    (h : p.components = q.components) :
    (linter.lintFile grammar files p).messages = (linter.lintFile grammar files q).messages := by
  obtain ⟨_, _, _, hwayp⟩ := hp
  obtain ⟨_, _, _, hwayq⟩ := hq
  have hway : files.way p = files.way q := by
    rw [hwayp, hwayq, FileSystem.way_eq hwayp hwayq h]
  have hextension : Path.extension? p = Path.extension? q := by
    rw [Path.extension?, Path.extension?, Path.fileName?, Path.fileName?, h]
  have hread : files.readText p = files.readText q := by
    rw [FileSystem.readText, FileSystem.readText, FileSystem.read, FileSystem.read,
      FileSystem.lookup, FileSystem.lookup, hway]
  unfold lintFile
  simp only [hextension, hread]
  split <;> rfl

theorem ofReports_lintFiles {ps qs : List Path} (hps : ∀ p ∈ ps, files.LeadsToFile p)
    (hqs : ∀ q ∈ qs, files.LeadsToFile q)
    (h : ps.map Path.components = qs.map Path.components) :
    Summary.ofReports (linter.lintFiles grammar files ps) =
      Summary.ofReports (linter.lintFiles grammar files qs) := by
  refine Summary.ofReports_congr ?_
  induction ps generalizing qs with
  | nil =>
    obtain rfl := List.map_eq_nil_iff.mp h.symm
    rfl
  | cons p ps ih =>
    obtain ⟨q, qs, rfl, hq, hrest⟩ := List.map_eq_cons_iff.mp h.symm
    have hmessages : (linter.lintFile grammar files p).messages =
        (linter.lintFile grammar files q).messages :=
      messages_lintFile (hps p List.mem_cons_self) (hqs q List.mem_cons_self) hq.symm
    have htail := ih (List.forall_mem_of_forall_mem_cons hps)
      (List.forall_mem_of_forall_mem_cons hqs) hrest.symm
    change (linter.lintFile grammar files p).messages :: _ =
      (linter.lintFile grammar files q).messages :: _
    rw [hmessages]
    exact congrArg _ htail

end Linter

namespace Command

/-! ### The files to lint -/

section

variable {library : IgnoreLibrary} {files : FileSystem} {settings : Settings}
  {paths linted : List Path}

theorem filesToLint_eq_ok : filesToLint library files settings paths = .ok linted ↔
    (∀ path ∈ paths, files.contains path = true) ∧
      linted = Path.dropRepeated (Path.sort (paths.flatMap (settings.collect library files))) := by
  unfold filesToLint
  split
  · rename_i path hpath
    have hmem := List.mem_of_find?_eq_some hpath
    have hnot := List.find?_some hpath
    simp only [reduceCtorEq, false_iff]
    intro h
    rw [h.1 path hmem] at hnot
    exact absurd hnot (by decide)
  · rename_i hnone
    have hall : ∀ path ∈ paths, files.contains path = true := by
      simpa using List.find?_eq_none.mp hnone
    rw [Except.ok.injEq, and_iff_right hall]
    exact eq_comm

theorem exists_linted_of_contains (library : IgnoreLibrary) (settings : Settings)
    (h : ∀ path ∈ paths, files.contains path = true) :
    ∃ linted, filesToLint library files settings paths = .ok linted :=
  ⟨_, filesToLint_eq_ok.mpr ⟨h, rfl⟩⟩

theorem exists_mem_of_linted (h : filesToLint library files settings paths = .ok linted) {p : Path}
    (hp : p ∈ linted) : ∃ path ∈ paths, p ∈ settings.collect library files path := by
  rw [(filesToLint_eq_ok.mp h).2] at hp
  have hmem := (Path.dropRepeated_sublist _).subset hp
  exact List.mem_flatMap.mp (Path.mem_sort.mp hmem)

theorem exists_linted (h : filesToLint library files settings paths = .ok linted) {path p : Path}
    (hpath : path ∈ paths) (hp : p ∈ settings.collect library files path) :
    ∃ q ∈ linted, q.components = p.components := by
  rw [(filesToLint_eq_ok.mp h).2]
  exact Path.exists_mem_dropRepeated
    (Path.mem_sort.mpr (List.mem_flatMap.mpr ⟨path, hpath, hp⟩))

theorem linted_increasing (h : filesToLint library files settings paths = .ok linted) :
    linted.Pairwise fun p q => p.components < q.components := by
  rw [(filesToLint_eq_ok.mp h).2]
  exact Path.pairwise_dropRepeated (Path.pairwise_sort _)

/-- The files to lint depend on which paths are given, not on how often or in what order. -/
theorem components_linted {paths' linted' : List Path}
    (h : filesToLint library files settings paths = .ok linted)
    (h' : filesToLint library files settings paths' = .ok linted')
    (hsame : ∀ path, path ∈ paths' ↔ path ∈ paths) :
    linted'.map Path.components = linted.map Path.components := by
  refine List.Pairwise.eq_of_mem_iff (List.pairwise_map.mpr (linted_increasing h'))
    (List.pairwise_map.mpr (linted_increasing h)) fun cs => ?_
  rw [List.mem_map, List.mem_map]
  constructor
  · rintro ⟨p, hp, rfl⟩
    obtain ⟨path, hpath, hfound⟩ := exists_mem_of_linted h' hp
    exact exists_linted h ((hsame path).mp hpath) hfound
  · rintro ⟨p, hp, rfl⟩
    obtain ⟨path, hpath, hfound⟩ := exists_mem_of_linted h hp
    exact exists_linted h' ((hsame path).mpr hpath) hfound

/-- A file is linted twice only by a path that goes up, or by paths that open differently. -/
theorem linted_apart (h : filesToLint library files settings paths = .ok linted) :
    linted.Pairwise fun p q => files.SamePlace p q →
      .up ∈ p.components ∨ .up ∈ q.components ∨ p.opening ≠ q.opening := by
  refine (linted_increasing h).imp fun {p q} hlt hplace => ?_
  by_cases hp : .up ∈ p.components
  · exact .inl hp
  · by_cases hq : .up ∈ q.components
    · exact .inr (.inl hq)
    · exact .inr (.inr fun hopening => hlt.ne (hplace.components_eq hp hq hopening))

variable (hwalks : library.WalksBelow) (hfiles : files.top.WellNamed)
  (h : filesToLint library files settings paths = .ok linted)
include hwalks hfiles h

/-- The files to lint are found from the paths given. -/
theorem found_linted {p : Path} (hp : p ∈ linted) : ∃ path ∈ paths, files.FoundFrom path p := by
  obtain ⟨path, hpath, hfound⟩ := exists_mem_of_linted h hp
  have hcontains := (filesToLint_eq_ok.mp h).1 path hpath
  exact ⟨path, hpath, Settings.found_collect hwalks hfiles hcontains hfound⟩

theorem leads_of_linted : ∀ p ∈ linted, files.LeadsToFile p := by
  intro p hp
  obtain ⟨_, _, hfound⟩ := found_linted hwalks hfiles h hp
  exact hfound.leads

/-- Where no path given goes up, and all open alike, no file is linted twice. -/
theorem linted_once (hup : ∀ path ∈ paths, .up ∉ path.components)
    (hopening : ∀ path ∈ paths, ∀ path' ∈ paths, path.opening = path'.opening) :
    linted.Pairwise fun p q => ¬ files.SamePlace p q := by
  refine (linted_apart h).imp_of_mem fun {p q} hp hq hapart hplace => ?_
  obtain ⟨path, hpath, hfoundp⟩ := found_linted hwalks hfiles h hp
  obtain ⟨path', hpath', hfoundq⟩ := found_linted hwalks hfiles h hq
  -- What is found goes up where the path does that it is found from, and opens like it.
  rcases hapart hplace with hupp | hupq | hne
  · exact hup path hpath (hfoundp.up_iff.mp hupp)
  · exact hup path' hpath' (hfoundq.up_iff.mp hupq)
  · have hsame := hopening path hpath path' hpath'
    exact hne (hfoundp.opening_eq.trans (hsame.trans hfoundq.opening_eq.symm))

end

/-! ### Reports of a run -/

/-- **A run covers each path once.**  Where there is something at every argument, the run
lints some files.  Its reports are on files found at the arguments, in the order of the
components of their paths, and each file found has a report with the components of its
path, and only one.  Two reports are on the same file only by a path that goes up, or by
paths that open differently.  So where no argument goes up, and all open alike, no file is
reported twice.  And whatever the arguments, giving them in another order or more than once
leaves the totals as they are. -/
theorem covered_once (linter : Linter) (grammar : Grammar) {library : IgnoreLibrary}
    {files : FileSystem} {paths : List Path} (hwalks : library.WalksBelow)
    (hfiles : files.top.WellNamed) (hpaths : ∀ path ∈ paths, files.contains path = true) :
    ∃ linted, filesToLint library files linter.settings paths = .ok linted ∧
      let reports := linter.lintFiles grammar files linted
      (∀ report ∈ reports, files.LeadsToFile report.path ∧
          ∃ path ∈ paths, report.path ∈ linter.settings.collect library files path) ∧
        (∀ path ∈ paths, ∀ p ∈ linter.settings.collect library files path,
          ∃ report ∈ reports, report.path.components = p.components) ∧
        (reports.Pairwise fun r s => r.path.components < s.path.components) ∧
        (reports.Pairwise fun r s => files.SamePlace r.path s.path →
          .up ∈ r.path.components ∨ .up ∈ s.path.components ∨
            r.path.opening ≠ s.path.opening) ∧
        ((∀ path ∈ paths, .up ∉ path.components) →
          (∀ path ∈ paths, ∀ path' ∈ paths, path.opening = path'.opening) →
          reports.Pairwise fun r s => ¬ files.SamePlace r.path s.path) ∧
        ∀ paths' : List Path, (∀ path, path ∈ paths' ↔ path ∈ paths) →
          ∃ linted', filesToLint library files linter.settings paths' = .ok linted' ∧
            Summary.ofReports (linter.lintFiles grammar files linted') =
              Summary.ofReports reports := by
  obtain ⟨linted, h⟩ := exists_linted_of_contains library linter.settings hpaths
  refine ⟨linted, h, ?_, ?_, Linter.pairwise_lintFiles.mpr (linted_increasing h),
    Linter.pairwise_lintFiles.mpr (linted_apart h), fun hup hopening =>
      Linter.pairwise_lintFiles.mpr (linted_once hwalks hfiles h hup hopening), ?_⟩
  · intro report hreport
    obtain ⟨p, hp, rfl⟩ := List.mem_map.mp hreport
    rw [Linter.path_lintFile]
    exact ⟨leads_of_linted hwalks hfiles h p hp, exists_mem_of_linted h hp⟩
  · intro path hpath p hp
    obtain ⟨q, hq, heq⟩ := exists_linted h hpath hp
    refine ⟨linter.lintFile grammar files q, List.mem_map_of_mem hq, ?_⟩
    rw [Linter.path_lintFile, heq]
  · intro paths' hsame
    have hpaths' : ∀ path ∈ paths', files.contains path = true :=
      fun path hpath => hpaths path ((hsame path).mp hpath)
    obtain ⟨linted', h'⟩ := exists_linted_of_contains library linter.settings hpaths'
    exact ⟨linted', h', Linter.ofReports_lintFiles (leads_of_linted hwalks hfiles h')
      (leads_of_linted hwalks hfiles h) (components_linted h h' hsame)⟩

/-! ### Overlapping arguments -/

namespace Overlap

/-- A file, and a directory with another. -/
def home : FileTree :=
  .directory "home" [.file "a.js" [], .directory "lib" [.file "b.js" []]]

def files : FileSystem := home

def linter : Linter := ⟨.default, []⟩

theorem files_wellNamed : files.top.WellNamed := by
  have hlib : WellNamed (.directory "lib" [.file "b.js" []]) := .of_file (by decide) _
  have hhome : home.WellNamed := by
    refine .directory _ _ (by decide) (by decide) ?_
    exact List.forall_mem_cons.mpr ⟨.file _ _, List.forall_mem_singleton.mpr hlib⟩
  exact .directory _ _ (by decide) (by decide) (List.forall_mem_singleton.mpr hhome)

end Overlap

/-- A directory and a file in it cover the file once, from the top directory. -/
theorem directory_and_file_cover_once :
    IgnoreLibrary.gitignore.WalksBelow ∧ Overlap.files.top.WellNamed ∧
      (∀ path ∈ ["/home/a.js", "/home/lib", "/home/lib/b.js"],
        Overlap.files.contains path = true) ∧
      filesToLint .gitignore Overlap.files .default ["/home/a.js", "/home/lib", "/home/lib/b.js"] =
        .ok ["/home/a.js", "/home/lib/b.js"] ∧
      (Overlap.linter.lintFiles (fun _ => default) Overlap.files
        ["/home/a.js", "/home/lib/b.js"]).Pairwise
          fun r s => ¬ Overlap.files.SamePlace r.path s.path := by
  have hpaths : ∀ path ∈ ["/home/a.js", "/home/lib", "/home/lib/b.js"],
      Overlap.files.contains path = true := by
    decide +kernel
  have hlinted : filesToLint .gitignore Overlap.files .default
      ["/home/a.js", "/home/lib", "/home/lib/b.js"] = .ok ["/home/a.js", "/home/lib/b.js"] := by
    have hsort : Path.sort ["/home/a.js", "/home/lib/b.js", "/home/lib/b.js"] =
        ["/home/a.js", "/home/lib/b.js", "/home/lib/b.js"] :=
      List.mergeSort_of_pairwise (by decide +kernel)
    have hfound : ["/home/a.js", "/home/lib", "/home/lib/b.js"].flatMap
        (Settings.default.collect .gitignore Overlap.files) =
        ["/home/a.js", "/home/lib/b.js", "/home/lib/b.js"] := by decide +kernel
    rw [filesToLint_eq_ok, hfound, hsort]
    exact ⟨hpaths, by decide +kernel⟩
  obtain ⟨linted, h, _, _, _, _, honce, _⟩ :=
    covered_once Overlap.linter (fun _ => default) IgnoreLibrary.gitignore_walksBelow
      Overlap.files_wellNamed hpaths
  obtain rfl : ["/home/a.js", "/home/lib/b.js"] = linted := Except.ok.inj (hlinted.symm.trans h)
  exact ⟨IgnoreLibrary.gitignore_walksBelow, Overlap.files_wellNamed, hpaths, hlinted,
    honce (by decide +kernel) (by decide +kernel)⟩

/-- A directory with a file. -/
def Overlap.oneFile : FileSystem := FileTree.directory "home" [.file "a.js" []]

theorem Overlap.oneFile_wellNamed : oneFile.top.WellNamed := by
  have hhome : WellNamed (.directory "home" [.file "a.js" []]) := .of_file (by decide) _
  exact .directory _ _ (by decide) (by decide) (List.forall_mem_singleton.mpr hhome)

/-- **A dot covers again** what is named beside it: the file that the walk of the directory
finds behind a dot and a slash is linted by its name as well. -/
theorem dot_covers_again :
    Overlap.oneFile.top.WellNamed ∧
      filesToLint .gitignore Overlap.oneFile .default [".", "a.js"] = .ok ["./a.js", "a.js"] ∧
      ¬ (Overlap.linter.lintFiles (fun _ => default) Overlap.oneFile ["./a.js", "a.js"]).Pairwise
        fun r s => ¬ Overlap.oneFile.SamePlace r.path s.path := by
  refine ⟨Overlap.oneFile_wellNamed, ?_, ?_⟩
  · have hsort : Path.sort ["./a.js", "a.js"] = ["./a.js", "a.js"] :=
      List.mergeSort_of_pairwise (by decide)
    have hfound : [".", "a.js"].flatMap (Settings.default.collect .gitignore Overlap.oneFile) =
        ["./a.js", "a.js"] := by decide +kernel
    rw [filesToLint_eq_ok, hfound, hsort]
    exact ⟨by decide +kernel, rfl⟩
  · have hplace : Overlap.oneFile.SamePlace "./a.js" "a.js" := ⟨_, rfl, rfl⟩
    intro honce
    have hpaths : ["./a.js", "a.js"].Pairwise fun p q => ¬ Overlap.oneFile.SamePlace p q :=
      Linter.pairwise_lintFiles.mp honce
    exact List.pairwise_pair.mp hpaths hplace

end Command

end ScopeLint
