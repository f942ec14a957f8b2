import Mathlib.Data.List.Nodup
import ScopeLint.Ignore.Library
import ScopeLint.Proofs.Files.Below
import ScopeLint.Proofs.Files.Writing

/-! # What is asked of patterns and walks

The library that reads patterns and walks directories is a parameter, and this is what is relied
on of it.

* Walks yield only what is there (`IgnoreLibrary.WalksBelow`).  This is asked of any walk.
* Where no ignore file decides, a walk yields a directory, and of each directory that it yields
  the items that are not hidden and that the given filter accepts (`IgnoreLibrary.Passes`), each
  once (`IgnoreLibrary.WalksFreely`).
* A matcher that is built from lines decides by the last of them that decides, and lines are told
  apart by what one of them decides (`IgnoreLibrary.LineReading`).  Which lines are well formed
  and what one line decides are given, and so is when there is a matcher at all.

Nothing is asked of the order of the entries, nor of what ignore files say.
-/

namespace ScopeLint

open FileTree (WellNamed)

/-! ### Directories without ignore files -/

namespace FileTree

mutual

/-- The directories at and below a file or directory. -/
def directories : FileTree → List FileTree
  | file .. => []
  | directory name items => directory name items :: directoriesAll items

/-- The directories among some entries and below them. -/
def directoriesAll : List FileTree → List FileTree
  | [] => []
  | entry :: rest => directories entry ++ directoriesAll rest

end

/-- **A directory where no ignore file decides**: it holds none, and is not the directory of a
repository. -/
structure Unruled (directory : FileTree) : Prop where
  gitignore : directory.contentOf? ".gitignore" = none
  ignore : directory.contentOf? ".ignore" = none
  repository : directory.item? ".git" = none

instance (directory : FileTree) : Decidable directory.Unruled :=
  decidable_of_iff ((directory.contentOf? ".gitignore").isNone = true ∧
      (directory.contentOf? ".ignore").isNone = true ∧ (directory.item? ".git").isNone = true)
    ⟨fun ⟨hgitignore, hignore, hrepository⟩ =>
      ⟨Option.isNone_iff_eq_none.mp hgitignore, Option.isNone_iff_eq_none.mp hignore,
        Option.isNone_iff_eq_none.mp hrepository⟩,
      fun h => ⟨Option.isNone_iff_eq_none.mpr h.gitignore, Option.isNone_iff_eq_none.mpr h.ignore,
        Option.isNone_iff_eq_none.mpr h.repository⟩⟩

end FileTree

namespace IgnoreLibrary

/-! ### Walks -/

/-- **Walks yield only what is there**: a file that the walk of a directory yields lies below the
directory, and its path goes on from that of the directory with the names that lead to it. -/
def WalksBelow (library : IgnoreLibrary) : Prop :=
  ∀ {files : FileSystem} {root : Path} {here : FileTree} {above : List FileTree}
    {accepts : WalkEntry → Bool} {entry : WalkEntry},
    files.top.WellNamed → files.way root = .ok (here :: above) → here.isDirectory = true →
      .ok entry ∈ library.walk files root accepts → entry.kind = some .file →
        ∃ names file, here.descend names = some file ∧ file.isDirectory = false ∧
          entry.path = root.joinAll names

/-- **A walk passes from a tree at a path by names to what is found**: none of the names is
hidden, and each entry on the way is accepted. -/
inductive Passes (accepts : WalkEntry → Bool) :
    Path → FileTree → List String → FileTree → Prop
  | here (path : Path) (tree : FileTree) : Passes accepts path tree [] tree
  | item {path : Path} {tree item found : FileTree} {names : List String}
    (mem : item ∈ tree.items) (shown : Path.isHidden item.name = false)
    (accepted : accepts (.of (path.join item.name) item) = true)
    (rest : Passes accepts (path.join item.name) item names found) :
    Passes accepts path tree (item.name :: names) found

/-- **Walks where no ignore file decides**, neither in the directory nor below or above it. -/
structure WalksFreely (library : IgnoreLibrary) : Prop where
  /-- The entries are those of the directory and of what the walk passes to. -/
  yields : ∀ {files : FileSystem} {root : Path} {here : FileTree} {above : List FileTree}
    {accepts : WalkEntry → Bool} {entry : WalkEntry},
    files.top.WellNamed → files.way root = .ok (here :: above) →
      (∀ directory ∈ here.directories ++ above, directory.Unruled) → root.isInput = false →
        (.ok entry ∈ library.walk files root accepts ↔
          ∃ names found, Passes accepts root here names found ∧
            entry = .of (root.joinAll names) found)
  /-- Each of them is yielded once. -/
  once : ∀ {files : FileSystem} {root : Path} {here : FileTree} {above : List FileTree}
    {accepts : WalkEntry → Bool},
    files.top.WellNamed → files.way root = .ok (here :: above) →
      (∀ directory ∈ here.directories ++ above, directory.Unruled) →
        ((library.walk files root accepts).filterMap Except.toOption).Nodup
  /-- On the standard input no files are. -/
  input : ∀ {files : FileSystem} {root : Path} {accepts : WalkEntry → Bool} {entry : WalkEntry},
    root.isInput = true → .ok entry ∈ library.walk files root accepts → entry.kind = none

/-! ### Lines -/

/-- **How a library reads lines for a directory.** -/
structure LineReading (library : IgnoreLibrary) (root : Path) where
  /-- A builder has taken in some lines, and nothing else. -/
  Holds : library.Builder → List String → Prop
  /-- Whether a line is well formed. -/
  valid : String → Bool
  /-- What a line decides about what names lead to from the directory, be it a directory or
  not. -/
  verdict : String → List String → Bool → Option Verdict
  new : Holds (library.new root) []
  /-- An ignore file that is not there says nothing. -/
  no_file : ∀ {builder lines}, Holds builder lines → Holds (library.addFile none builder) lines
  /-- A well-formed line comes behind the others. -/
  add_valid : ∀ {builder lines line}, Holds builder lines → valid line = true →
    ∃ builder', library.addLine line builder = some builder' ∧ Holds builder' (lines ++ [line])
  /-- A malformed line is refused. -/
  add_malformed : ∀ {builder lines line}, Holds builder lines → valid line = false →
    library.addLine line builder = none
  /-- The last line that decides about a path decides. -/
  matched : ∀ {builder lines matcher names isDirectory}, Holds builder lines →
    library.build builder = some matcher → names ≠ [] → (∀ name ∈ names, Path.IsName name) →
      library.matched matcher (root.joinAll names) isDirectory =
        lines.reverse.findSome? fun line => verdict line names isDirectory
  /-- Without lines nothing is decided. -/
  empty : ∀ path isDirectory, library.matched library.empty path isDirectory = none
  /-- Only a line with an exclamation mark keeps what it matches. -/
  ignores : ∀ {line names isDirectory}, line.toList.head? ≠ some '!' →
    verdict line names isDirectory ≠ some .kept
  /-- An exclamation mark before a line keeps what the line ignores. -/
  keeps : ∀ {line names isDirectory}, (∀ c ∈ line.toList.head?, c ∉ ['!', '\\', '#']) →
    verdict line names isDirectory = some .ignored →
      valid ("!" ++ line) = true ∧ verdict ("!" ++ line) names isDirectory = some .kept

end IgnoreLibrary

/-! ### Trees of names -/

namespace FileTree

variable {tree item : FileTree} {names : List String}

theorem directories_eq (h : tree.isDirectory = true) :
    tree.directories = tree :: directoriesAll tree.items := by
  cases tree with
  | file => cases h
  | directory => rfl

/-- The names that lead through a well-named tree are names that files may have. -/
theorem WellNamed.isName_of_descend (h : tree.WellNamed)
    (hdescend : tree.descend names = some item) : ∀ name ∈ names, Path.IsName name := by
  induction names generalizing tree with
  | nil => exact fun _ hname => absurd hname List.not_mem_nil
  | cons s names ih =>
    obtain ⟨inner, hinner, hrest⟩ := Option.bind_eq_some_iff.mp hdescend
    have hmem := mem_of_item? hinner
    have hname : Path.IsName s := name_of_item? hinner ▸ h.isName_of_mem hmem
    exact List.forall_mem_cons.mpr ⟨hname, ih (h.item hmem) hrest⟩

theorem WellNamed.descend_cons (h : tree.WellNamed) (hmem : item ∈ tree.items)
    (more : List String) : tree.descend (item.name :: more) = item.descend more := by
  rw [descend, h.item?_eq_some hmem, Option.bind_some]

/-- Only from a directory names lead on. -/
theorem isDirectory_of_descend (hne : names ≠ []) (h : tree.descend names = some item) :
    tree.isDirectory = true := by
  cases names with
  | nil => exact absurd rfl hne
  | cons s names =>
    obtain ⟨_, hinner, _⟩ := Option.bind_eq_some_iff.mp h
    exact isDirectory_of_mem (mem_of_item? hinner)

end FileTree

/-- A path that goes on with names leads where the names lead from the path. -/
theorem FileSystem.way_joinAll {files : FileSystem} {path : Path} {here found : FileTree}
    {above : List FileTree} {names : List String} (hhere : here.WellNamed)
    (hway : files.way path = .ok (here :: above)) (hfound : here.descend names = some found) :
    ∃ above', files.way (path.joinAll names) = .ok (found :: above') := by
  induction names generalizing path here above with
  | nil =>
    cases hfound
    exact ⟨above, hway⟩
  | cons s names ih =>
    obtain ⟨item, hitem, hrest⟩ := Option.bind_eq_some_iff.mp hfound
    obtain rfl := FileTree.name_of_item? hitem
    have hmem := FileTree.mem_of_item? hitem
    exact ih (hhere.item hmem) (way_join hway hitem (hhere.isName_of_mem hmem)) hrest

/-! ### All names at once -/

namespace IgnoreLibrary

variable {accepts : WalkEntry → Bool} {path : Path} {tree found : FileTree} {names : List String}

/-- **What a walk passes to** is what names lead to of which none is hidden, so that all that the
first of them lead to is accepted. -/
theorem passes_iff (htree : tree.WellNamed) : Passes accepts path tree names found ↔
    tree.descend names = some found ∧ (∀ name ∈ names, Path.isHidden name = false) ∧
      ∀ front back inner, names = front ++ back → front ≠ [] →
        tree.descend front = some inner → accepts (.of (path.joinAll front) inner) = true := by
  constructor
  · intro h
    induction h with
    | here path tree =>
      refine ⟨rfl, fun _ hname => absurd hname List.not_mem_nil, fun front back inner hsplit => ?_⟩
      exact fun hfront => absurd (List.append_eq_nil_iff.mp hsplit.symm).1 hfront
    | @item path tree item found names mem shown accepted rest ih =>
      obtain ⟨hfound, hshown, haccepted⟩ := ih (htree.item mem)
      refine ⟨(htree.descend_cons mem names).trans hfound,
        List.forall_mem_cons.mpr ⟨shown, hshown⟩, fun front back inner hsplit hfront hinner => ?_⟩
      obtain ⟨s, front, rfl⟩ := List.exists_cons_of_ne_nil hfront
      rw [List.cons_append, List.cons.injEq] at hsplit
      obtain ⟨rfl, hsplit⟩ := hsplit
      rw [htree.descend_cons mem] at hinner
      cases front with
      | nil =>
        cases hinner
        exact accepted
      | cons t front => exact haccepted _ back inner hsplit (List.cons_ne_nil _ _) hinner
  · rintro ⟨hfound, hshown, haccepted⟩
    induction names generalizing path tree with
    | nil =>
      cases hfound
      exact .here _ _
    | cons s names ih =>
      obtain ⟨item, hitem, hrest⟩ := Option.bind_eq_some_iff.mp hfound
      obtain rfl := FileTree.name_of_item? hitem
      have hmem := FileTree.mem_of_item? hitem
      obtain ⟨hitemShown, hnamesShown⟩ := List.forall_mem_cons.mp hshown
      have hdown := htree.descend_cons hmem
      refine .item hmem hitemShown ?_ (ih (htree.item hmem) hrest hnamesShown ?_)
      · exact haccepted [item.name] names item rfl (List.cons_ne_nil _ _) (hdown [])
      · intro front back inner hsplit _ hinner
        exact haccepted (item.name :: front) back inner (by rw [hsplit]; rfl)
          (List.cons_ne_nil _ _) ((hdown front).trans hinner)

end IgnoreLibrary

end ScopeLint
