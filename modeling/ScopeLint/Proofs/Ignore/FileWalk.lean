import ScopeLint.Ignore.Filter
import ScopeLint.Proofs.Ignore.Laws

/-! # What the walks of git's ignore files yield

Whatever the ignore files say, each entry of a walk lies below the directory that is walked
(`FileWalk.exists_entriesIn`), so these walks yield only what is there
(`IgnoreLibrary.gitignore_walksBelow`).

Where no ignore file decides anything, no level around an entry does (`Level.IsSilent`), and a
walk passes over hidden names and over what is not accepted.  What is left is what it passes to
(`FileWalk.mem_entriesIn_iff`), each by other names (`FileWalk.pairwise_entriesIn`), as is asked
of walks (`IgnoreLibrary.gitignore_walksFreely`).
-/

namespace ScopeLint

open FileTree (WellNamed)
open IgnoreLibrary (Passes)

/-! ### Levels without patterns -/

namespace Level

/-- A level without patterns. -/
structure IsSilent (level : Level) : Prop where
  always : level.always.patterns = []
  versioned : level.versioned.patterns = []
  excluded : level.excluded.patterns = []

variable {files : FileSystem} {directory : FileTree}

theorem ofContent_none (root : Path) : (PatternSet.ofContent root none).patterns = [] := rfl

theorem isSilent_ofDirectory (files : FileSystem) (path : Path) (h : directory.Unruled) :
    (ofDirectory files path directory).IsSilent where
  always := by rw [ofDirectory, h.ignore, ofContent_none]
  versioned := by rw [ofDirectory, h.gitignore, ofContent_none]
  excluded := by rw [ofDirectory, Repository.excludeFile?, h.repository, ofContent_none]

theorem isSilent_onWay {way : List FileTree} (h : ∀ directory ∈ way, directory.Unruled) :
    ∀ level ∈ onWay files way, level.IsSilent := by
  induction way with
  | nil => exact fun _ hlevel => absurd hlevel List.not_mem_nil
  | cons directory above ih =>
    obtain ⟨hdirectory, habove⟩ := List.forall_mem_cons.mp h
    exact List.forall_mem_cons.mpr ⟨isSilent_ofDirectory files _ hdirectory, ih habove⟩

theorem nearest_eq_none {select : Level → PatternSet} {inRepository isDirectory : Bool}
    {levels : List (Level × Path)} (h : ∀ level ∈ levels, (select level.1).patterns = []) :
    nearest select inRepository isDirectory levels = none := by
  induction levels with
  | nil => rfl
  | cons level above ih =>
    obtain ⟨hlevel, habove⟩ := List.forall_mem_cons.mp h
    have hnone : (select level.1).verdict? level.2 isDirectory = none := by
      rw [PatternSet.verdict?, hlevel]
      rfl
    rw [nearest, hnone]
    simp only [ih habove, ite_self]

/-- **Silent levels decide nothing.** -/
theorem verdict?_eq_none {levels : List (Level × Path)} (isDirectory : Bool)
    (h : ∀ level ∈ levels, level.1.IsSilent) : verdict? levels isDirectory = none := by
  simp only [verdict?, nearest_eq_none fun level hlevel => (h level hlevel).always,
    nearest_eq_none fun level hlevel => (h level hlevel).versioned,
    nearest_eq_none fun level hlevel => (h level hlevel).excluded, ite_self, Option.or_none]

end Level

namespace FileWalk

variable {walk : FileWalk} {entry : WalkEntry} {item : FileTree}

/-! ### What is there -/

mutual

/-- **An entry of a walk below an item** is one of what names lead to from the item. -/
theorem exists_entriesIn {levels : List Level} {path : Path} :
    (item : FileTree) → item.WellNamed → entry ∈ walk.entriesIn levels path item →
      ∃ names found, item.descend names = some found ∧
        entry = .of ((path.join item.name).joinAll names) found
  | .file name content, _, h => by
    rw [entriesIn] at h
    split at h
    · exact absurd h List.not_mem_nil
    · exact ⟨[], _, rfl, List.mem_singleton.mp h⟩
  | .directory name items, hnamed, h => by
    rw [entriesIn] at h
    split at h
    · exact absurd h List.not_mem_nil
    · rcases List.mem_cons.mp h with rfl | h
      · exact ⟨[], _, rfl, rfl⟩
      · obtain ⟨item, hmem, names, found, hfound, rfl⟩ :=
          exists_entriesInAll items (fun item => hnamed.item) h
        exact ⟨item.name :: names, found, (hnamed.descend_cons hmem names).trans hfound, rfl⟩

/-- **An entry of a walk below some items** is one below one of them. -/
theorem exists_entriesInAll {levels : List Level} {path : Path} :
    (items : List FileTree) → (∀ item ∈ items, item.WellNamed) →
      entry ∈ walk.entriesInAll levels path items →
      ∃ item ∈ items, ∃ names found, item.descend names = some found ∧
        entry = .of ((path.join item.name).joinAll names) found
  | [], _, h => absurd h (by rw [entriesInAll]; exact List.not_mem_nil)
  | item :: rest, hnamed, h => by
    obtain ⟨hitem, hrest⟩ := List.forall_mem_cons.mp hnamed
    rw [entriesInAll, List.mem_append] at h
    rcases h with h | h
    · exact ⟨item, List.mem_cons_self, exists_entriesIn item hitem h⟩
    · obtain ⟨other, hother, hfound⟩ := exists_entriesInAll rest hrest h
      exact ⟨other, List.mem_cons_of_mem _ hother, hfound⟩

end

/-! ### Where no ignore file decides -/

theorem skips_eq_false_iff {levels : List Level} {path : Path}
    (hlevels : ∀ level ∈ levels, level.IsSilent) (habove : ∀ level ∈ walk.above, level.IsSilent)
    (tree : FileTree) : walk.skips levels path tree = false ↔
      Path.isHidden tree.name = false ∧ walk.accepts (.of path tree) = true := by
  have hsilent : ∀ level ∈ walk.levelsFor levels path, level.1.IsSilent := by
    intro level hlevel
    rcases List.mem_append.mp hlevel with hlevel | hlevel
    · obtain ⟨_, hmem, rfl⟩ := List.mem_map.mp hlevel
      exact hlevels _ hmem
    · obtain ⟨_, hmem, rfl⟩ := List.mem_map.mp hlevel
      exact habove _ hmem
  rw [skips, Level.verdict?_eq_none _ hsilent, Bool.or_eq_false_iff, Bool.not_eq_false']

/-- What a walk passes to through an item of the directory at a path. -/
def PassesThrough (accepts : WalkEntry → Bool) (path : Path) (item : FileTree)
    (entry : WalkEntry) : Prop :=
  Path.isHidden item.name = false ∧ accepts (.of (path.join item.name) item) = true ∧
    ∃ names found, Passes accepts (path.join item.name) item names found ∧
      entry = .of ((path.join item.name).joinAll names) found

theorem not_passesThrough {levels : List Level} {path : Path}
    (habove : ∀ level ∈ walk.above, level.IsSilent) (hlevels : ∀ level ∈ levels, level.IsSilent)
    (h : walk.skips levels (path.join item.name) item = true) :
    ¬ PassesThrough walk.accepts path item entry := by
  rintro ⟨hshown, haccepted, _⟩
  have hnot := (skips_eq_false_iff hlevels habove item).mpr ⟨hshown, haccepted⟩
  exact Bool.noConfusion (h.symm.trans hnot)

mutual

/-- **The entries below an item** are those of what a walk passes to through it. -/
theorem mem_entriesIn_iff {levels : List Level} {path : Path}
    (habove : ∀ level ∈ walk.above, level.IsSilent) (hlevels : ∀ level ∈ levels, level.IsSilent) :
    (item : FileTree) → (∀ d ∈ item.directories, d.Unruled) →
      (entry ∈ walk.entriesIn levels path item ↔ PassesThrough walk.accepts path item entry)
  | .file name content, _ => by
    rw [entriesIn]
    split
    · rename_i hskips
      exact iff_of_false List.not_mem_nil (not_passesThrough habove hlevels hskips)
    · rename_i hskips
      obtain ⟨hshown, haccepted⟩ :=
        (skips_eq_false_iff hlevels habove _).mp (Bool.not_eq_true _ |>.mp hskips)
      rw [List.mem_singleton]
      constructor
      · rintro rfl
        exact ⟨hshown, haccepted, [], _, .here _ _, rfl⟩
      · rintro ⟨_, _, names, found, hpasses, rfl⟩
        cases hpasses with
        | here => rfl
        | item mem => exact absurd mem List.not_mem_nil
  | .directory name items, hunruled => by
    have hhere := Level.isSilent_ofDirectory walk.files (path.join name)
      (hunruled _ List.mem_cons_self)
    have hall : entry ∈ walk.entriesInAll (_ :: levels) (path.join name) items ↔ _ :=
      mem_entriesInAll_iff habove (List.forall_mem_cons.mpr ⟨hhere, hlevels⟩) items
        fun d hd => hunruled d (List.mem_cons_of_mem _ hd)
    rw [entriesIn]
    split
    · rename_i hskips
      exact iff_of_false List.not_mem_nil (not_passesThrough habove hlevels hskips)
    · rename_i hskips
      obtain ⟨hshown, haccepted⟩ :=
        (skips_eq_false_iff hlevels habove _).mp (Bool.not_eq_true _ |>.mp hskips)
      rw [List.mem_cons, hall]
      constructor
      · rintro (rfl | ⟨item, hmem, hitemShown, hitemAccepted, names, found, hpasses, rfl⟩)
        · exact ⟨hshown, haccepted, [], _, .here _ _, rfl⟩
        · exact ⟨hshown, haccepted, item.name :: names, found,
            .item hmem hitemShown hitemAccepted hpasses, rfl⟩
      · rintro ⟨_, _, names, found, hpasses, rfl⟩
        cases hpasses with
        | here => exact .inl rfl
        | item mem itemShown itemAccepted rest =>
          exact .inr ⟨_, mem, itemShown, itemAccepted, _, _, rest, rfl⟩

/-- **The entries below some items** are those below one of them. -/
theorem mem_entriesInAll_iff {levels : List Level} {path : Path}
    (habove : ∀ level ∈ walk.above, level.IsSilent) (hlevels : ∀ level ∈ levels, level.IsSilent) :
    (items : List FileTree) → (∀ d ∈ FileTree.directoriesAll items, d.Unruled) →
      (entry ∈ walk.entriesInAll levels path items ↔
        ∃ item ∈ items, PassesThrough walk.accepts path item entry)
  | [], _ => by simp [entriesInAll]
  | item :: rest, hunruled => by
    have hitem : entry ∈ walk.entriesIn levels path item ↔ _ :=
      mem_entriesIn_iff habove hlevels item fun d hd => hunruled d (List.mem_append_left _ hd)
    have hrest : entry ∈ walk.entriesInAll levels path rest ↔ _ :=
      mem_entriesInAll_iff habove hlevels rest fun d hd => hunruled d (List.mem_append_right _ hd)
    rw [entriesInAll, List.mem_append, hitem, hrest, List.exists_mem_cons_iff]

end

/-! ### Each entry once -/

/-- What is below some items of the directory at a path goes on with the name of one of them. -/
theorem exists_components_entriesInAll {levels : List Level} {path : Path} (hpath : path ≠ "")
    {items : List FileTree} (hnames : ∀ item ∈ items, Path.IsName item.name)
    (hwithin : ∀ item ∈ items, item.WellNamed)
    (h : entry ∈ walk.entriesInAll levels path items) :
    ∃ item ∈ items, ∃ more,
      entry.path.components = path.components ++ .name item.name :: more := by
  obtain ⟨item, hmem, names, found, hfound, rfl⟩ := exists_entriesInAll items hwithin h
  refine ⟨item, hmem, names.map .name, ?_⟩
  have hjoin := Path.components_joinAll (Path.join_ne_empty hpath (hnames item hmem))
    ((hwithin item hmem).isName_of_descend hfound)
  rw [Path.components_join hpath (hnames item hmem), List.append_assoc] at hjoin
  exact hjoin

mutual

/-- **The entries below an item** have different components. -/
theorem pairwise_entriesIn (levels : List Level) {path : Path} (hpath : path ≠ "") :
    (item : FileTree) → Path.IsName item.name → item.WellNamed →
      (walk.entriesIn levels path item).Pairwise fun e f => e.path.components ≠ f.path.components
  | .file name content, _, _ => by
    rw [entriesIn]
    split
    · exact .nil
    · exact List.pairwise_singleton _ _
  | .directory name items, hname, .directory _ _ distinct named within => by
    have hjoin := Path.join_ne_empty hpath hname
    rw [entriesIn]
    split
    · exact .nil
    · refine List.pairwise_cons.mpr
        ⟨fun entry hentry hsame => ?_, pairwise_entriesInAll _ hjoin items distinct named within⟩
      obtain ⟨item, _, more, hmore⟩ := exists_components_entriesInAll hjoin named within hentry
      exact absurd (List.self_eq_append_right.mp (hsame.trans hmore)) (List.cons_ne_nil _ _)

/-- **The entries below some items** have different components. -/
theorem pairwise_entriesInAll (levels : List Level) {path : Path} (hpath : path ≠ "") :
    (items : List FileTree) → (items.map FileTree.name).Nodup →
      (∀ item ∈ items, Path.IsName item.name) → (∀ item ∈ items, item.WellNamed) →
      (walk.entriesInAll levels path items).Pairwise fun e f =>
        e.path.components ≠ f.path.components
  | [], _, _, _ => by
    rw [entriesInAll]
    exact .nil
  | item :: rest, hdistinct, hnames, hwithin => by
    obtain ⟨hname, hrestNames⟩ := List.forall_mem_cons.mp hnames
    obtain ⟨hitemWithin, hrestWithin⟩ := List.forall_mem_cons.mp hwithin
    obtain ⟨hnew, hrestDistinct⟩ := List.nodup_cons.mp hdistinct
    have hitem := pairwise_entriesIn levels hpath item hname hitemWithin
    have hrest := pairwise_entriesInAll levels hpath rest hrestDistinct hrestNames hrestWithin
    rw [entriesInAll]
    refine List.pairwise_append.mpr ⟨hitem, hrest, ?_⟩
    -- Items differ in their names, which come next in the components.
    intro e he f hf hsame
    have he' : e ∈ walk.entriesInAll levels path [item] := by
      rw [entriesInAll]
      exact List.mem_append_left _ he
    obtain ⟨first, hfirst, more, hmore⟩ := exists_components_entriesInAll hpath
      (List.forall_mem_singleton.mpr hname) (List.forall_mem_singleton.mpr hitemWithin) he'
    obtain rfl := List.mem_singleton.mp hfirst
    obtain ⟨other, hother, more', hmore'⟩ :=
      exists_components_entriesInAll hpath hrestNames hrestWithin hf
    rw [hmore, hmore', List.append_cancel_left_eq, List.cons.injEq,
      PathComponent.name.injEq] at hsame
    exact hnew (hsame.1 ▸ List.mem_map_of_mem hother)

end

/-! ### Walks of directories -/

variable {files : FileSystem} {root : Path} {here : FileTree} {above : List FileTree}
  {accepts : WalkEntry → Bool}

theorem mem_run_iff (hway : files.way root = .ok (here :: above)) (hinput : root.isInput = false) :
    .ok entry ∈ run files root accepts ↔
      entry ∈ (ofDirectory files root here above accepts).entries here := by
  rw [run, hinput, if_neg Bool.false_ne_true, hway]
  simp

/-- The entries of a walk where no ignore file decides. -/
theorem mem_entries_iff (hunruled : ∀ directory ∈ here.directories ++ above, directory.Unruled)
    (entry : WalkEntry) :
    entry ∈ (ofDirectory files root here above accepts).entries here ↔
      ∃ names found, Passes accepts root here names found ∧
        entry = .of (root.joinAll names) found := by
  obtain ⟨hbelow, habove⟩ := List.forall_mem_append.mp hunruled
  rw [entries, List.mem_cons]
  cases here with
  | file name content =>
    have hnone : entry ∉ (ofDirectory files root (.file name content) above accepts).entriesInAll
        [Level.ofDirectory files root (.file name content)] root [] := by
      rw [entriesInAll]
      exact List.not_mem_nil
    refine (or_iff_left hnone).trans ⟨?_, ?_⟩
    · rintro rfl
      exact ⟨[], _, .here _ _, rfl⟩
    · rintro ⟨names, found, hpasses, rfl⟩
      cases hpasses with
      | here => rfl
      | item mem => exact absurd mem List.not_mem_nil
  | directory name items =>
    obtain ⟨hself, hitems⟩ := List.forall_mem_cons.mp hbelow
    have hlevels := List.forall_mem_singleton.mpr (Level.isSilent_ofDirectory files root hself)
    let walk := ofDirectory files root (.directory name items) above accepts
    have hall : entry ∈ walk.entriesInAll _ root items ↔ _ :=
      mem_entriesInAll_iff (Level.isSilent_onWay habove) hlevels items hitems
    refine (or_congr_right hall).trans ⟨?_, ?_⟩
    · rintro (rfl | ⟨item, hmem, hshown, haccepted, names, found, hpasses, rfl⟩)
      · exact ⟨[], _, .here _ _, rfl⟩
      · exact ⟨item.name :: names, found, .item hmem hshown haccepted hpasses, rfl⟩
    · rintro ⟨names, found, hpasses, rfl⟩
      cases hpasses with
      | here => exact .inl rfl
      | item mem shown accepted rest => exact .inr ⟨_, mem, shown, accepted, _, _, rest, rfl⟩

theorem nodup_entries (hroot : root ≠ "") (hhere : here.WellNamed) :
    ((ofDirectory files root here above accepts).entries here).Nodup := by
  cases hhere with
  | file name content =>
    rw [entries]
    show (_ :: entriesInAll _ _ _ []).Nodup
    rw [entriesInAll]
    exact List.nodup_singleton _
  | directory name items distinct named within =>
    let walk := ofDirectory files root (.directory name items) above accepts
    have hbelow (levels : List Level) : (walk.entriesInAll levels root items).Pairwise _ :=
      pairwise_entriesInAll levels hroot items distinct named within
    refine List.nodup_cons.mpr
      ⟨fun hmem => ?_, (hbelow _).imp fun hne heq => hne (congrArg (·.path.components) heq)⟩
    obtain ⟨item, _, more, hmore⟩ := exists_components_entriesInAll hroot named within hmem
    exact absurd (List.self_eq_append_right.mp hmore) (List.cons_ne_nil _ _)

end FileWalk

/-! ### What is asked of walks -/

namespace IgnoreLibrary

open FileWalk

/-- **These walks yield only what is there.** -/
theorem gitignore_walksBelow : gitignore.WalksBelow := by
  intro files root here above accepts entry hfiles hway hhere hmem hkind
  have hnamed := FileSystem.wellNamed_of_way hfiles hway here List.mem_cons_self
  cases hinput : root.isInput with
  | true =>
    have hrun : Except.ok entry ∈ run files root accepts := hmem
    rw [run, if_pos hinput, List.mem_singleton, Except.ok.injEq] at hrun
    subst hrun
    cases hkind
  | false =>
    have hentry := (mem_run_iff hway hinput).mp hmem
    rw [entries] at hentry
    have hfile : ∀ {path : Path} {found : FileTree}, entry = .of path found →
        found.isDirectory = false := by
      rintro path found rfl
      cases found with
      | file => rfl
      | directory => cases hkind
    rcases List.mem_cons.mp hentry with hself | hbelow
    · exact absurd hhere (by simp [hfile hself])
    · obtain ⟨item, hitem, names, found, hfound, heq⟩ :=
        exists_entriesInAll here.items (fun item => hnamed.item) hbelow
      exact ⟨item.name :: names, found, (hnamed.descend_cons hitem names).trans hfound,
        hfile heq, by rw [heq]; rfl⟩

/-- **Where no ignore file decides, these walks yield what they pass to**, once each. -/
theorem gitignore_walksFreely : gitignore.WalksFreely where
  yields _ hway hunruled hinput :=
    (mem_run_iff hway hinput).trans (mem_entries_iff hunruled _)
  once {files root here above accepts} hfiles hway _ := by
    show ((run files root accepts).filterMap Except.toOption).Nodup
    have hnamed := FileSystem.wellNamed_of_way hfiles hway here List.mem_cons_self
    rw [run]
    split
    · exact List.nodup_singleton _
    · simp only [hway, List.filterMap_map]
      rw [show Except.toOption ∘ Except.ok = (some : WalkEntry → _) from rfl, List.filterMap_some]
      exact nodup_entries (FileSystem.ne_empty_of_way hway) hnamed
  input {files root accepts entry} hinput hmem := by
    have hrun : Except.ok entry ∈ run files root accepts := hmem
    rw [run, if_pos hinput, List.mem_singleton, Except.ok.injEq] at hrun
    rw [hrun]

end IgnoreLibrary

end ScopeLint
