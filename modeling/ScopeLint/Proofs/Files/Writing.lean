import ScopeLint.Proofs.Files.Ways

/-! # Reading back what was written

Writing to a path puts a file into the directory that the path goes through last, in the place
of the file of its name if there is one.  All directories stay where they were
(`FileTree.exists_directory_withFile`), so the components of the path lead the same way as
before, also where they go up, and at its end is the file that was written
(`FileSystem.exists_write`).
-/

namespace ScopeLint

namespace FileTree

variable {tree here item : FileTree} {above way : List FileTree} {name s : String}
  {names back : List String} {content : List UInt8}

/-! ### Down by names -/

theorem descend_append (tree : FileTree) (names more : List String) :
    tree.descend (names ++ more) = (tree.descend names).bind (·.descend more) := by
  induction names generalizing tree with
  | nil => rfl
  | cons s names ih =>
    rw [List.cons_append, descend, descend, Option.bind_assoc]
    exact congrArg _ (funext ih)

theorem descend_concat (tree : FileTree) (names : List String) (s : String) :
    tree.descend (names ++ [s]) = (tree.descend names).bind (·.item? s) := by
  rw [descend_append]
  simp only [descend, Option.bind_fun_some]

/-! ### A file in its place -/

theorem find?_place (item : FileTree) (s : String) (items : List FileTree) :
    (place item items).find? (·.name == s) =
      if item.name = s then some item else items.find? (·.name == s) := by
  induction items with
  | nil =>
    by_cases h : item.name = s
    · simp [place, h]
    · simp [place, h]
  | cons other rest ih =>
    rw [place]
    by_cases hother : other.name = item.name
    · rw [if_pos hother]
      by_cases h : item.name = s
      · simp [h]
      · simp [hother, h]
    · rw [if_neg hother]
      by_cases h : other.name = s
      · have hs : ¬ item.name = s := fun hs => hother (h.trans hs.symm)
        simp [h, hs]
      · simp [h, ih]

theorem item?_withFile_nil :
    (tree.withFile [] name content).item? s =
      if name = s then some (file name content) else tree.item? s :=
  find?_place (file name content) s tree.items

theorem item?_withFile_cons {t : String} (h : tree.item? s = some item) :
    (tree.withFile (s :: names) name content).item? t =
      if s = t then some (item.withFile names name content) else tree.item? t := by
  have hname := name_of_item? h
  have hplace : (tree.withFile (s :: names) name content).items =
      place (item.withFile names name content) tree.items := by
    show place (directory s _) tree.items = _
    rw [item?] at h
    rw [h, withFile, hname]
    rfl
  rw [item?, hplace, find?_place]
  show (if item.name = t then _ else _) = _
  rw [hname]
  rfl

/-- The file is where it was put. -/
theorem descend_withFile (h : tree.descend names = some here) (name : String)
    (content : List UInt8) :
    (tree.withFile names name content).descend (names ++ [name]) = some (file name content) := by
  induction names generalizing tree with
  | nil =>
    rw [List.nil_append, descend, item?_withFile_nil, if_pos rfl]
    rfl
  | cons s names ih =>
    obtain ⟨item, hitem, hrest⟩ := Option.bind_eq_some_iff.mp h
    rw [List.cons_append, descend, item?_withFile_cons hitem, if_pos rfl]
    exact ih hrest

/-- **Directories stay where they were** when a file is put where none of them is. -/
theorem exists_directory_withFile (h : tree.descend names = some here)
    (hfile : ∀ item, here.item? name = some item → item.isDirectory = false)
    {others : List String} {d : FileTree} (hd : tree.descend others = some d)
    (hdirectory : d.isDirectory = true) :
    ∃ d', (tree.withFile names name content).descend others = some d' ∧ d'.isDirectory = true := by
  induction others generalizing tree names with
  | nil => exact ⟨_, rfl, rfl⟩
  | cons t others ih =>
    obtain ⟨item, hitem, hrest⟩ := Option.bind_eq_some_iff.mp hd
    cases names with
    | nil =>
      cases h
      rw [descend, item?_withFile_nil]
      by_cases ht : name = t
      · -- What was there is no directory, so nothing is below it.
        have hnone := hfile item (ht ▸ hitem)
        cases others with
        | nil =>
          cases hrest
          exact absurd hdirectory (by simp [hnone])
        | cons u others =>
          obtain ⟨inner, hinner, _⟩ := Option.bind_eq_some_iff.mp hrest
          exact absurd (isDirectory_of_mem (mem_of_item? hinner)) (by simp [hnone])
      · rw [if_neg ht, hitem]
        exact ⟨d, hrest, hdirectory⟩
    | cons s names =>
      obtain ⟨inner, hinner, hbelow⟩ := Option.bind_eq_some_iff.mp h
      rw [descend, item?_withFile_cons hinner]
      by_cases ht : s = t
      · subst ht
        obtain rfl : inner = item := Option.some.inj (hinner.symm.trans hitem)
        rw [if_pos rfl]
        exact ih hbelow hrest
      · rw [if_neg ht, hitem]
        exact ⟨d, hrest, hdirectory⟩

end FileTree

namespace FileSystem

variable {files : FileSystem} {tree here : FileTree} {above way : List FileTree} {name : String}
  {back : List String} {content : List UInt8}

/-! ### Ways and their names -/

/-- A way leads to where names lead from the top directory; `back` are the names, the last
first. -/
inductive IsWay (tree : FileTree) : List String → List FileTree → Prop
  | top : IsWay tree [] [tree]
  | step {back : List String} {here item : FileTree} {above : List FileTree} {s : String}
    (way : IsWay tree back (here :: above)) (hitem : here.item? s = some item) :
    IsWay tree (s :: back) (item :: here :: above)

theorem IsWay.exists_cons (h : IsWay tree back way) : ∃ here above, way = here :: above := by
  cases h with
  | top => exact ⟨_, _, rfl⟩
  | step => exact ⟨_, _, rfl⟩

theorem IsWay.descend (h : IsWay tree back (here :: above)) :
    tree.descend back.reverse = some here := by
  generalize hway : here :: above = way at h
  induction h generalizing here above with
  | top =>
    cases hway
    rfl
  | step way hitem ih =>
    cases hway
    rw [List.reverse_cons, FileTree.descend_concat, ih rfl]
    exact hitem

theorem IsWay.namesTo (h : IsWay tree back way) : namesTo way = back.reverse := by
  induction h with
  | top => rfl
  | step way hitem ih =>
    rw [FileSystem.namesTo, ih, FileTree.name_of_item? hitem, List.reverse_cons]
    exact List.cons_ne_nil _ _

/-- **Components lead the same way through a tree in which all directories are as before**, as
long as they lead to a directory. -/
theorem follow_of_kept {tree' : FileTree}
    (hkept : ∀ names d, tree.descend names = some d → d.isDirectory = true →
      ∃ d', tree'.descend names = some d' ∧ d'.isDirectory = true)
    {cs : List PathComponent} {way way' : List FileTree} (hway : IsWay tree back way)
    (hway' : IsWay tree' back way') (h : follow way cs = .ok (here :: above))
    (hhere : here.isDirectory = true) :
    ∃ back' found, IsWay tree back' (here :: above) ∧ IsWay tree' back' found ∧
      follow way' cs = .ok found := by
  induction cs generalizing back way way' with
  | nil =>
    cases h
    exact ⟨back, way', hway, hway', rfl⟩
  | cons c cs ih =>
    obtain ⟨at', above', rfl⟩ := hway'.exists_cons
    obtain ⟨atWay, aboveWay, rfl, hdirectory, hstep⟩ := follow_cases h
    have hdirectory' : at'.isDirectory = true := by
      obtain ⟨d', hd', hsame⟩ := hkept _ _ hway.descend hdirectory
      rw [hway'.descend, Option.some.injEq] at hd'
      exact hd' ▸ hsame
    simp only [follow, if_pos hdirectory']
    rcases hstep with ⟨hopening, hrest⟩ | ⟨rfl, hrest⟩ | ⟨item, hitem, rfl, hrest⟩
    · cases c with
      | root | here => exact ih hway hway' hrest
      | up | name => cases hopening
    · cases hway with
      | top =>
        cases hway' with
        | top => exact ih .top .top hrest
      | step outer hitem =>
        cases hway' with
        | step outer' hitem' => exact ih outer outer' hrest
    · have hnext := IsWay.step hway hitem
      -- What is stepped to is a directory: it is gone through, or the end.
      have hthrough : item.isDirectory = true := by
        cases cs with
        | nil =>
          cases hrest
          exact hhere
        | cons c cs => exact isDirectory_of_follow hrest
      obtain ⟨item', hitem', _⟩ := hkept _ _ hnext.descend hthrough
      rw [List.reverse_cons, FileTree.descend_concat, hway'.descend, Option.bind_some] at hitem'
      simp only [hitem']
      exact ih hnext (.step hway' hitem') hrest

theorem exists_isWay {cs : List PathComponent} (h : follow [tree] cs = .ok (here :: above))
    (hhere : here.isDirectory = true) : ∃ back, IsWay tree back (here :: above) := by
  obtain ⟨back, _, hway, _⟩ :=
    follow_of_kept (fun _ d hd hdirectory => ⟨d, hd, hdirectory⟩) .top .top h hhere
  exact ⟨back, hway⟩

/-! ### Writing -/

/-- What is at a path that ends in a name is the item of the name, in the directory that the
rest of the path leads to. -/
theorem lookup_concat {path : Path} {cs : List PathComponent}
    (hcomponents : path.components = cs ++ [.name name])
    (hfollow : follow [files.top] (files.start path ++ cs) = .ok (here :: above))
    (hhere : here.isDirectory = true) (hfile : asksDirectory path = false) :
    files.lookup path = (here.item? name).elim (.error .notFound) .ok := by
  have hempty : path.isEmpty = false := by
    rw [← Bool.not_eq_true, String.isEmpty_iff]
    rintro rfl
    exact List.append_ne_nil_of_right_ne_nil cs (List.cons_ne_nil _ _) hcomponents.symm
  have hlast : follow [files.top] (files.fromTop path) =
      (here.item? name).elim (.error .notFound) fun item => .ok (item :: here :: above) := by
    rw [fromTop, hcomponents, ← List.append_assoc, follow_append, hfollow]
    simp only [Except.bind, follow, hhere, if_true]
    cases here.item? name <;> rfl
  rw [lookup, FileSystem.way, hempty, hlast]
  cases here.item? name with
  | none => rfl
  | some item => cases item <;> simp [hfile]

/-- A place for a file: a path that ends in a name, in a directory that is there, at which
there is no directory. -/
structure HasPlace (files : FileSystem) (path : Path) : Prop where
  names_file : asksDirectory path = false
  in_directory : ∃ cs name here above, path.components = cs ++ [.name name] ∧
    follow [files.top] (files.start path ++ cs) = .ok (here :: above) ∧ here.isDirectory = true
  no_directory : ∀ found, files.lookup path = .ok found → found.isDirectory = false

/-- **What is written is read back**, wherever there is a place for a file. -/
theorem exists_write {path : Path} (h : files.HasPlace path) (content : List UInt8) :
    ∃ saved, files.write path content = .ok saved ∧ saved.read path = .ok content := by
  obtain ⟨cs, name, here, above, hcomponents, hfollow, hhere⟩ := h.in_directory
  have hlookup := lookup_concat hcomponents hfollow hhere h.names_file
  have hfile : ∀ item, here.item? name = some item → item.isDirectory = false := by
    intro item hitem
    rw [hitem] at hlookup
    exact h.no_directory item hlookup
  obtain ⟨back, hway⟩ := exists_isWay hfollow hhere
  have hdescend := hway.descend
  rw [← hway.namesTo] at hdescend
  let top := files.top.withFile (namesTo (here :: above)) name content
  refine ⟨{ files with top }, ?_, ?_⟩
  · rw [write, hlookup, hcomponents, List.getLast?_concat, List.dropLast_concat, hfollow,
      h.names_file]
    cases here with
    | file => cases hhere
    | directory here items =>
      cases hitem : (FileTree.directory here items).item? name with
      | none => rfl
      | some item =>
        cases item with
        | file => rfl
        | directory => cases hfile _ hitem
  · have hkept : ∀ names d, files.top.descend names = some d → d.isDirectory = true →
        ∃ d', top.descend names = some d' ∧ d'.isDirectory = true :=
      fun _ _ => FileTree.exists_directory_withFile hdescend hfile
    obtain ⟨back', found, hbefore, hafter, hfound⟩ := follow_of_kept hkept .top .top hfollow hhere
    obtain ⟨here', above', rfl⟩ := hafter.exists_cons
    have hitem : top.descend (namesTo (here :: above) ++ [name]) = some (.file name content) :=
      FileTree.descend_withFile hdescend name content
    rw [hbefore.namesTo, FileTree.descend_concat, hafter.descend, Option.bind_some] at hitem
    have hhere' := FileTree.isDirectory_of_mem (FileTree.mem_of_item? hitem)
    rw [read, lookup_concat hcomponents hfound hhere' h.names_file, hitem]
    rfl

/-- Nothing is written where there is no place for it. -/
theorem HasPlace.of_write {saved : FileSystem} {path : Path}
    (h : files.write path content = .ok saved) : files.HasPlace path := by
  unfold write at h
  split at h
  · cases h
  · cases h
  · rename_i name hlast hnone _
    split at h
    · rename_i here items above hfollow
      split at h
      · cases h
      · rename_i hfile
        have hcomponents := List.dropLast_append_getLast? _ hlast
        refine ⟨Bool.not_eq_true _ |>.mp hfile,
          ⟨_, name, _, above, hcomponents.symm, hfollow, rfl⟩, ?_⟩
        intro found hfound
        cases found with
        | file => rfl
        | directory name items => exact absurd hfound (hnone _ _)
    · cases h
    · cases h
    · cases h
  · cases h

end FileSystem

end ScopeLint
