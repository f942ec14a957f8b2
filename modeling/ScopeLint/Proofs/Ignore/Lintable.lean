import Mathlib.Data.List.Infix
import ScopeLint.Proofs.Ignore.Collect
import ScopeLint.Proofs.Ignore.FileWalk
import ScopeLint.Proofs.Ignore.Pattern

/-! # The files to lint below a directory

Where no ignore file decides, the files to lint at a directory are exactly those that some names
lead to from it, so that the extension is a configured one, no name is hidden, and neither the
file nor a directory on the way is rejected (`Settings.Lintable`).  They come in strictly
increasing order of their components, each once (`Settings.collect_directory`).  That holds of
any walk and any reading of patterns of which is asked what `IgnoreLibrary.WalksFreely` and
`IgnoreLibrary.LineReading` say.

Two directories are out of the ordinary.  One that is given as `-` stands for the standard
input, and has no files to lint.  And where the filter of the directory cannot be built, nothing
is rejected at all: the default patterns are lost with the user's, and programs in the
directories of dependencies are linted.  One pattern of the user's that is well formed but cannot
be built is enough for that (`Settings.nested_braces_lose_defaults`).
-/

namespace ScopeLint

open FileTree (WellNamed)
open IgnoreLibrary (Passes LineReading passes_iff)

/-! ### What is in a directory -/

namespace FileSystem

variable {files : FileSystem} {root : Path} {here : FileTree} {above : List FileTree}
  (hway : files.way root = .ok (here :: above))
include hway

/-- What is in a file of a directory is read through the path of the directory. -/
theorem contentIn?_eq (hhere : here.isDirectory = true) {name : String}
    (hname : Path.IsName name) : files.contentIn? root name = here.contentOf? name := by
  have hpath := ne_empty_of_way hway
  have hfollow := follow_of_way hway
  rw [fromTop, ← start_join hpath hname] at hfollow
  rw [contentIn?, read, lookup_concat (Path.components_join hpath hname) hfollow hhere
    (Path.asksDirectory_join hpath hname), FileTree.contentOf?]
  cases here.item? name with
  | none => rfl
  | some item => cases item <;> rfl

end FileSystem

namespace Settings

/-! ### Lintable files -/

/-- **The filter of a directory can be built**, with the user's patterns. -/
def FilterBuilds (settings : Settings) (library : IgnoreLibrary) (files : FileSystem)
    (root : Path) : Prop :=
  library.Builds root (files.contentIn? root) settings.exclude

variable {library : IgnoreLibrary} {root : Path}

/-- **A file to lint**, by names below a directory without ignore files. -/
structure Lintable (settings : Settings) (reading : library.LineReading root)
    (files : FileSystem) (here : FileTree) (names : List String) : Prop where
  /-- The names lead to a file. -/
  file : ∃ name content, here.descend names = some (.file name content)
  /-- Its extension is configured. -/
  wanted : ∃ extension ∈ settings.extensions,
    (root.joinAll names).extension? = some extension
  /-- None of the names is hidden. -/
  shown : ∀ name ∈ names, Path.isHidden name = false
  /-- Neither the file nor a directory on the way to it is rejected; nothing is when there is no
  filter. -/
  kept : settings.FilterBuilds library files root → ∀ front back found, names = front ++ back →
    front ≠ [] → here.descend front = some found →
      ¬ reading.Rejects settings.exclude front found.isDirectory

variable {settings : Settings} {reading : library.LineReading root} {files : FileSystem}
  {here : FileTree} {above : List FileTree} {names : List String} {p : Path}

/-- What lies on the way to a lintable file is a directory. -/
theorem Lintable.exists_directory {front back : List String}
    (h : settings.Lintable reading files here (front ++ back)) (hback : back ≠ []) :
    ∃ found, here.descend front = some found ∧ found.isDirectory = true := by
  obtain ⟨name, content, hfile⟩ := h.file
  rw [FileTree.descend_append] at hfile
  obtain ⟨found, hfound, hrest⟩ := Option.bind_eq_some_iff.mp hfile
  exact ⟨found, hfound, FileTree.isDirectory_of_descend hback hrest⟩

theorem wants_iff : settings.wants p = true ↔
    ∃ extension ∈ settings.extensions, p.extension? = some extension := by
  rw [wants, Option.any_eq_true]
  simp only [handles, List.contains_iff_mem]
  exact ⟨fun ⟨e, he, hmem⟩ => ⟨e, hmem, he⟩, fun ⟨e, hmem, he⟩ => ⟨e, he, hmem⟩⟩

/-! ### The files to lint at a directory -/

section Directory

variable (hway : files.way root = .ok (here :: above)) (hhere : here.isDirectory = true)
include hway hhere

variable (hfiles : files.top.WellNamed)
  (hunruled : ∀ directory ∈ here.directories ++ above, directory.Unruled)

include hfiles hunruled in
/-- The walk of a directory is told to accept what is not rejected. -/
theorem accepts_iff (reading : library.LineReading root) {found : FileTree} (hne : names ≠ [])
    (hfound : here.descend names = some found) :
    settings.accepts library files root (.of (root.joinAll names) found) = true ↔
      (settings.FilterBuilds library files root →
        ¬ reading.Rejects settings.exclude names found.isDirectory) := by
  have hself : here.Unruled := hunruled here (by simp [FileTree.directories_eq hhere])
  have hgitignore : files.contentIn? root ".gitignore" = none :=
    (files.contentIn?_eq hway hhere (by decide)).trans hself.gitignore
  have hignore : files.contentIn? root ".ignore" = none :=
    (files.contentIn?_eq hway hhere (by decide)).trans hself.ignore
  have hnames := (FileSystem.wellNamed_here hway hfiles).isName_of_descend hfound
  have hkind : decide ((WalkEntry.of (root.joinAll names) found).kind = some .directory) =
      found.isDirectory := by
    cases found <;> rfl
  rw [accepts, hkind, Bool.not_eq_true', ← Bool.not_eq_true]
  exact (not_congr (reading.ignores_iff hgitignore hignore hne hnames)).trans not_and

variable (hwalks : library.WalksFreely)
include hfiles hunruled hwalks

/-- What the walk of a directory yields is what names lead to of which none is hidden, so that
nothing that the first of them lead to is rejected. -/
theorem mem_found_iff (reading : library.LineReading root) (hinput : root.isInput = false)
    {entry : WalkEntry} : entry ∈ settings.found library files root ↔
      ∃ names found, entry = .of (root.joinAll names) found ∧ here.descend names = some found ∧
        (∀ name ∈ names, Path.isHidden name = false) ∧
        (settings.FilterBuilds library files root → ∀ front back inner, names = front ++ back →
          front ≠ [] → here.descend front = some inner →
            ¬ reading.Rejects settings.exclude front inner.isDirectory) := by
  have hnamed := FileSystem.wellNamed_here hway hfiles
  rw [mem_found, hwalks.yields hfiles hway hunruled hinput]
  refine exists_congr fun names => exists_congr fun found => ?_
  rw [passes_iff hnamed, and_comm]
  refine and_congr_right fun _ => and_congr_right fun _ => and_congr_right fun _ => ?_
  constructor
  · intro haccepts hbuilds front back inner hsplit hfront hinner
    have hinner' := haccepts front back inner hsplit hfront hinner
    exact (accepts_iff hway hhere hfiles hunruled reading hfront hinner).mp hinner' hbuilds
  · intro hkept front back inner hsplit hfront hinner
    exact (accepts_iff hway hhere hfiles hunruled reading hfront hinner).mpr
      fun hbuilds => hkept hbuilds front back inner hsplit hfront hinner

/-- **The files to lint at a directory** are the lintable ones. -/
theorem mem_collect_iff (reading : library.LineReading root) :
    p ∈ settings.collect library files root ↔
      root.isInput = false ∧
        ∃ names, settings.Lintable reading files here names ∧ p = root.joinAll names := by
  rw [mem_collect hway hhere]
  cases hinput : root.isInput with
  | true =>
    simp only [Bool.true_eq_false, false_and, iff_false, not_and, not_exists]
    intro _ entry hentry hkind
    rw [hwalks.input hinput (mem_found.mp hentry)] at hkind
    cases hkind
  | false =>
    rw [and_iff_right rfl]
    constructor
    · rintro ⟨hwants, entry, hentry, hkind, rfl⟩
      obtain ⟨names, found, rfl, hfound, hshown, hkept⟩ :=
        (mem_found_iff hway hhere hfiles hunruled hwalks reading hinput).mp hentry
      cases found with
      | directory => cases hkind
      | file name content =>
        exact ⟨names, ⟨⟨name, content, hfound⟩, wants_iff.mp hwants, hshown, hkept⟩, rfl⟩
    · rintro ⟨names, ⟨⟨name, content, hfound⟩, hwanted, hshown, hkept⟩, rfl⟩
      exact ⟨wants_iff.mpr hwanted, _,
        (mem_found_iff hway hhere hfiles hunruled hwalks reading hinput).mpr
          ⟨names, _, rfl, hfound, hshown, hkept⟩, rfl, rfl⟩

/-- The files to lint at a directory strictly increase by their components. -/
theorem pairwise_collect (reading : library.LineReading root) :
    (settings.collect library files root).Pairwise fun p q => p.components < q.components := by
  have hroot := FileSystem.ne_empty_of_way hway
  have hnamed := FileSystem.wellNamed_here hway hfiles
  rw [collect_eq hway hhere]
  refine Path.pairwise_sort_of_distinct (List.Pairwise.filter _ (List.pairwise_map.mpr ?_))
  cases hinput : root.isInput with
  | true =>
    have hnone : (settings.found library files root).filter (·.kind = some .file) = [] := by
      refine List.filter_eq_nil_iff.mpr fun entry hentry => ?_
      simp [hwalks.input hinput (mem_found.mp hentry)]
    rw [hnone]
    exact .nil
  | false =>
    have honce : (settings.found library files root).Nodup := hwalks.once hfiles hway hunruled
    refine List.Pairwise.filter _ (honce.imp_of_mem fun {e f} he hf hne hsame => hne ?_)
    -- Components tell the names, and names tell what they lead to.
    obtain ⟨names, found, rfl, hfound, _⟩ :=
      (mem_found_iff hway hhere hfiles hunruled hwalks reading hinput).mp he
    obtain ⟨names', found', rfl, hfound', _⟩ :=
      (mem_found_iff hway hhere hfiles hunruled hwalks reading hinput).mp hf
    obtain rfl : names = names' := Path.eq_of_components_joinAll hroot
      (hnamed.isName_of_descend hfound) (hnamed.isName_of_descend hfound') hsame
    rw [Option.some.inj (hfound.symm.trans hfound')]

/-- What comes behind a rejected directory is not among them. -/
theorem not_mem_collect (reading : library.LineReading root)
    (hbuilds : settings.FilterBuilds library files root) {front back : List String}
    (hfront : front ≠ []) (hback : back ≠ []) (hnames : ∀ name ∈ front ++ back, Path.IsName name)
    (hrejects : reading.Rejects settings.exclude front true) :
    root.joinAll (front ++ back) ∉ settings.collect library files root := by
  intro hmem
  obtain ⟨_, names, hlintable, hpath⟩ :=
    (mem_collect_iff hway hhere hfiles hunruled hwalks reading).mp hmem
  have hnamed := FileSystem.wellNamed_here hway hfiles
  obtain ⟨_, _, hfile⟩ := hlintable.file
  obtain rfl : front ++ back = names := Path.joinAll_injective (FileSystem.ne_empty_of_way hway)
    hnames (hnamed.isName_of_descend hfile) hpath
  obtain ⟨found, hfound, hdirectory⟩ := hlintable.exists_directory hback
  exact hlintable.kept hbuilds front back found rfl hfront hfound (hdirectory ▸ hrejects)

end Directory

/-- **The files to lint below a directory.**  Where no ignore file decides, they are exactly the
lintable ones, strictly increasing by their components, and none of them comes behind a directory
that stays rejected.  What a default line ignores is rejected unless a line of the user's takes
it back, as the same line does behind an exclamation mark. -/
theorem collect_directory (settings : Settings) (hwalks : library.WalksFreely)
    (reading : library.LineReading root) (hfiles : files.top.WellNamed)
    (hway : files.way root = .ok (here :: above)) (hhere : here.isDirectory = true)
    (hunruled : ∀ directory ∈ here.directories ++ above, directory.Unruled) :
    ((settings.collect library files root).Pairwise fun p q => p.components < q.components) ∧
      (∀ p, p ∈ settings.collect library files root ↔
        root.isInput = false ∧
          ∃ names, settings.Lintable reading files here names ∧ p = root.joinAll names) ∧
      (settings.FilterBuilds library files root → ∀ front back, front ≠ [] → back ≠ [] →
        (∀ name ∈ front ++ back, Path.IsName name) →
        reading.Rejects settings.exclude front true →
        root.joinAll (front ++ back) ∉ settings.collect library files root) ∧
      ∀ line ∈ IgnoreLibrary.defaultLines, ∀ names isDirectory,
        reading.verdict line names isDirectory = some .ignored →
          (reading.valid line = true → reading.Rejects [] names isDirectory) ∧
            ∀ exclude, ¬ reading.Rejects (exclude ++ ["!" ++ line]) names isDirectory :=
  ⟨pairwise_collect hway hhere hfiles hunruled hwalks reading,
    fun _ => mem_collect_iff hway hhere hfiles hunruled hwalks reading,
    fun hbuilds _ _ => not_mem_collect hway hhere hfiles hunruled hwalks reading hbuilds,
    fun _ hline _ _ hverdict => ⟨fun hvalid => reading.rejects_default hline hvalid hverdict,
      fun _ => reading.not_rejects_kept hline hverdict⟩⟩

end Settings

/-! ### Kept directories -/

namespace Settings

namespace Builds

/-- A program, and what two builds have made of it. -/
def home : FileTree :=
  .directory "home" [.file "a.js" [], .directory "build" [.file "b.js" []],
    .directory "dist" [.file "d.js" []]]

def files : FileSystem := ⟨.directory "" [home], []⟩

/-- The results of one build are kept, and a file among those of the other. -/
def settings : Settings := { Settings.default with exclude := ["!dist/", "!build/b.js"] }

def reading : IgnoreLibrary.gitignore.LineReading "/home" :=
  IgnoreLibrary.gitignoreReading (by decide)

theorem files_wellNamed : files.top.WellNamed := by
  have hbuild : WellNamed (.directory "build" [.file "b.js" []]) := .of_file (by decide) _
  have hdist : WellNamed (.directory "dist" [.file "d.js" []]) := .of_file (by decide) _
  have hhome : home.WellNamed := by
    refine .directory _ _ (by decide) (by decide) ?_
    exact List.forall_mem_cons.mpr ⟨.file _ _,
      List.forall_mem_cons.mpr ⟨hbuild, List.forall_mem_singleton.mpr hdist⟩⟩
  exact .directory _ _ (by decide) (by decide) (List.forall_mem_singleton.mpr hhome)

end Builds

/-- **A kept directory is linted**, and a kept file below a directory that stays rejected is
not. -/
theorem kept_build_linted :
    IgnoreLibrary.gitignore.WalksFreely ∧ Builds.files.top.WellNamed ∧
      Builds.files.way "/home" = .ok [Builds.home, Builds.files.top] ∧
      Builds.home.isDirectory = true ∧
      (∀ directory ∈ Builds.home.directories ++ [Builds.files.top], directory.Unruled) ∧
      Builds.settings.FilterBuilds .gitignore Builds.files "/home" ∧
      "/home/dist/d.js" ∈ Builds.settings.collect .gitignore Builds.files "/home" ∧
      "/home/build/b.js" ∉ Builds.settings.collect .gitignore Builds.files "/home" := by
  have hway : Builds.files.way "/home" = .ok [Builds.home, Builds.files.top] := rfl
  have hunruled : ∀ directory ∈ Builds.home.directories ++ [Builds.files.top],
      directory.Unruled := by
    decide
  have hbuilds : Builds.settings.FilterBuilds .gitignore Builds.files "/home" := by
    unfold FilterBuilds
    decide +kernel
  obtain ⟨_, hiff, hbehind, _⟩ := collect_directory Builds.settings
    IgnoreLibrary.gitignore_walksFreely Builds.reading Builds.files_wellNamed hway rfl hunruled
  have hdist : Path.joinAll "/home" ["dist", "d.js"] = "/home/dist/d.js" := by decide +kernel
  have hbuild : Path.joinAll "/home" ["build", "b.js"] = "/home/build/b.js" := by decide +kernel
  have hkept : ∀ front ∈ ["dist", "d.js"].inits, front ≠ [] →
      ∀ found ∈ Builds.home.descend front,
        ¬ Builds.reading.Rejects Builds.settings.exclude front found.isDirectory := by
    decide +kernel
  have hlintable : Builds.settings.Lintable Builds.reading Builds.files Builds.home
      ["dist", "d.js"] :=
    ⟨⟨"d.js", [], rfl⟩, by rw [hdist]; decide +kernel, by decide,
      fun _ front back found hsplit hfront hfound =>
        hkept front ((List.mem_inits _ _).mpr ⟨back, hsplit.symm⟩) hfront found hfound⟩
  refine ⟨IgnoreLibrary.gitignore_walksFreely, Builds.files_wellNamed, hway, rfl, hunruled,
    hbuilds, ?_, ?_⟩
  · exact (hiff _).mpr ⟨by decide, _, hlintable, hdist.symm⟩
  · rw [← hbuild]
    exact hbehind hbuilds ["build"] ["b.js"] (by decide) (by decide) (by decide)
      (by decide +kernel)

/-! ### Patterns that cannot be built -/

namespace Nested

/-- A program of a dependency. -/
def home : FileTree := .directory "home" [.directory "node_modules" [.file "a.js" []]]

def files : FileSystem := ⟨.directory "" [home], ["home"]⟩

def reading : IgnoreLibrary.gitignore.LineReading "." :=
  IgnoreLibrary.gitignoreReading (by decide)

theorem files_wellNamed : files.top.WellNamed := by
  have hmodules : WellNamed (.directory "node_modules" [.file "a.js" []]) := .of_file (by decide) _
  have hhome : home.WellNamed :=
    .directory _ _ (by decide) (by decide) (List.forall_mem_singleton.mpr hmodules)
  exact .directory _ _ (by decide) (by decide) (List.forall_mem_singleton.mpr hhome)

/-- A pattern of a letter within as many braces. -/
def braces (depth : Nat) : List Char :=
  List.replicate depth '\x7b' ++ 'a' :: List.replicate depth '\x7d'

/-- Such a pattern, one brace deeper than a pattern may nest. -/
def settings : Settings := { Settings.default with exclude := [String.ofList (braces 250)] }

theorem patterns_eq : Pattern.ofTexts (IgnoreLibrary.defaultLines ++ settings.exclude) =
    Pattern.ofLines (IgnoreLibrary.defaultLines.map String.toList ++ [braces 250]) := by
  rw [Pattern.ofTexts, settings, List.map_append, List.map_singleton, String.toList_ofList]

theorem not_builds : ¬ settings.FilterBuilds .gitignore files "." := by
  have hgitignore : files.contentIn? "." ".gitignore" = none := by decide +kernel
  have hignore : files.contentIn? "." ".ignore" = none := by decide +kernel
  rw [FilterBuilds, IgnoreLibrary.gitignore_builds_iff (by decide) hgitignore hignore, patterns_eq]
  decide +kernel

theorem rejects_modules : reading.Rejects settings.exclude ["node_modules"] true := by
  rw [reading, IgnoreLibrary.gitignore_rejects_iff, patterns_eq]
  decide +kernel

end Nested

/-- **One pattern that cannot be built loses the default ones**: the program of a dependency is
linted, though the last pattern that matches its directory ignores it. -/
theorem nested_braces_lose_defaults :
    Nested.files.top.WellNamed ∧ Nested.files.way "." = .ok [Nested.home, Nested.files.top] ∧
      (∀ directory ∈ Nested.home.directories ++ [Nested.files.top], directory.Unruled) ∧
      "./node_modules/a.js" ∈ Nested.settings.collect .gitignore Nested.files "." ∧
      Nested.reading.Rejects Nested.settings.exclude ["node_modules"] true := by
  have hway : Nested.files.way "." = .ok [Nested.home, Nested.files.top] := rfl
  have hunruled : ∀ directory ∈ Nested.home.directories ++ [Nested.files.top],
      directory.Unruled := by
    decide
  have hpath : Path.joinAll "." ["node_modules", "a.js"] = "./node_modules/a.js" := by
    decide +kernel
  have hlintable : Nested.settings.Lintable Nested.reading Nested.files Nested.home
      ["node_modules", "a.js"] :=
    ⟨⟨"a.js", [], rfl⟩, by rw [hpath]; decide +kernel, by decide,
      fun hbuilds => absurd hbuilds Nested.not_builds⟩
  refine ⟨Nested.files_wellNamed, hway, hunruled, ?_, Nested.rejects_modules⟩
  exact (mem_collect_iff hway rfl Nested.files_wellNamed hunruled
    IgnoreLibrary.gitignore_walksFreely Nested.reading).mpr ⟨by decide, _, hlintable, hpath.symm⟩

end Settings

end ScopeLint
