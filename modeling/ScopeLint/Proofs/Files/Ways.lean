import Mathlib.Data.List.Nodup
import ScopeLint.Proofs.Files.Paths

/-! # Ways through a file system

A path leads along a way, from the file or directory that it is the path of up to the top
directory.  A path that goes on with the name of an item leads one step further
(`FileSystem.way_join`).  Unless a path goes up, the names on its way are its components
(`FileSystem.names_of_follow`), so two such paths of the same file have the same components
if they open alike (`FileSystem.SamePlace.components_eq`).
-/

namespace ScopeLint

namespace FileTree

/-- A tree whose directories hold items by names that they may have, each by its own. -/
inductive WellNamed : FileTree → Prop where
  /-- A file holds nothing. -/
  | file (name : String) (content : List UInt8) : WellNamed (file name content)
  /-- A directory holds well-named items. -/
  | directory (name : String) (items : List FileTree) (distinct : (items.map FileTree.name).Nodup)
      (named : ∀ item ∈ items, Path.IsName item.name) (within : ∀ item ∈ items, WellNamed item) :
      WellNamed (directory name items)

/-- The items of a well-named directory are well-named. -/
theorem WellNamed.item {tree item : FileTree} (h : tree.WellNamed) (hmem : item ∈ tree.items) :
    item.WellNamed := by
  cases h with
  | file name content => exact absurd hmem List.not_mem_nil
  | directory name items distinct named within => exact within item hmem

/-- A directory with one file is well-named. -/
theorem WellNamed.of_file {s name : String} (h : Path.IsName name) (content : List UInt8) :
    (FileTree.directory s [.file name content]).WellNamed := by
  refine .directory s [.file name content] ?_ ?_ (List.forall_mem_singleton.mpr (.file _ _))
  · exact List.nodup_singleton name
  · exact List.forall_mem_singleton.mpr h

/-- What names lead to from a file or directory. -/
def descend (tree : FileTree) : List String → Option FileTree
  | [] => some tree
  | s :: names => (tree.item? s).bind (·.descend names)

variable {tree item : FileTree} {s : String}

theorem name_of_item? (h : tree.item? s = some item) : item.name = s := by
  simpa using List.find?_some h

theorem mem_of_item? (h : tree.item? s = some item) : item ∈ tree.items :=
  List.mem_of_find?_eq_some h

/-- Only a directory holds items. -/
theorem isDirectory_of_mem (h : item ∈ tree.items) : tree.isDirectory = true := by
  cases tree with
  | file => exact absurd h List.not_mem_nil
  | directory => rfl

/-- The item of a name is the first with the name, and the only one. -/
theorem item?_eq_some (hdistinct : (tree.items.map FileTree.name).Nodup)
    (hmem : item ∈ tree.items) : tree.item? item.name = some item := by
  cases hfound : tree.item? item.name with
  | none =>
    have hnone := List.find?_eq_none.mp hfound item hmem
    exact absurd (beq_self_eq_true item.name) hnone
  | some other =>
    rw [List.inj_on_of_nodup_map hdistinct (mem_of_item? hfound) hmem (name_of_item? hfound)]

theorem WellNamed.item?_eq_some (h : tree.WellNamed) (hmem : item ∈ tree.items) :
    tree.item? item.name = some item := by
  cases h with
  | file => exact absurd hmem List.not_mem_nil
  | directory _ _ distinct => exact FileTree.item?_eq_some distinct hmem

theorem WellNamed.isName_of_mem (h : tree.WellNamed) (hmem : item ∈ tree.items) :
    Path.IsName item.name := by
  cases h with
  | file => exact absurd hmem List.not_mem_nil
  | directory _ _ _ named => exact named item hmem

end FileTree

open FileTree (WellNamed)

namespace FileSystem

/-- Two paths lead to the same file or directory, by the way to it. -/
def SamePlace (files : FileSystem) (p q : Path) : Prop :=
  ∃ way, files.way p = .ok way ∧ files.way q = .ok way

/-- A path leads to a file. -/
def LeadsToFile (files : FileSystem) (path : Path) : Prop :=
  ∃ name content above, files.way path = .ok (.file name content :: above)

variable {files : FileSystem} {path p q : Path}

/-! ## Following components -/

theorem follow_append (way : List FileTree) (cs more : List PathComponent) :
    follow way (cs ++ more) = (follow way cs).bind (follow · more) := by
  induction cs generalizing way with
  | nil => rfl
  | cons c cs ih =>
    cases way with
    | nil => rfl
    | cons here above =>
      simp only [List.cons_append, follow]
      split
      · cases c with
        | root | here => exact ih (here :: above)
        | up => exact ih _
        | name s =>
          simp only
          split
          · exact ih _
          · rfl
      · rfl

/-- Components lead on from a directory alone. -/
theorem isDirectory_of_follow {here : FileTree} {above found : List FileTree} {c : PathComponent}
    {cs : List PathComponent} (h : follow (here :: above) (c :: cs) = .ok found) :
    here.isDirectory = true := by
  by_contra hfile
  simp only [follow, if_neg hfile] at h
  cases h

/-- **What a step may do**: a slash or a dot stays, two dots lead out unless at the top, and a
name leads to the item that has it. -/
theorem follow_cases {way found : List FileTree} {c : PathComponent} {cs : List PathComponent}
    (h : follow way (c :: cs) = .ok found) :
    ∃ here above, way = here :: above ∧ here.isDirectory = true ∧
      (c.isOpening = true ∧ follow way cs = .ok found ∨
        c = .up ∧ follow (if above.isEmpty then [here] else above) cs = .ok found ∨
        ∃ item, here.item? item.name = some item ∧ c = .name item.name ∧
          follow (item :: way) cs = .ok found) := by
  cases way with
  | nil => cases h
  | cons here above =>
    have hhere := isDirectory_of_follow h
    refine ⟨here, above, rfl, hhere, ?_⟩
    simp only [follow, if_pos hhere] at h
    cases c with
    | root | here => exact .inl ⟨rfl, h⟩
    | up => exact .inr (.inl ⟨rfl, h⟩)
    | name s =>
      cases hitem : here.item? s with
      | none =>
        simp only [hitem] at h
        cases h
      | some item =>
        simp only [hitem] at h
        obtain rfl := FileTree.name_of_item? hitem
        exact .inr (.inr ⟨item, hitem, rfl, h⟩)

/-- **The names on a way.**  Unless it goes up, following components takes a step for each
of them that is a name, to what has the name. -/
theorem names_of_follow {way found : List FileTree} {cs : List PathComponent}
    (h : follow way cs = .ok found) (hup : .up ∉ cs) :
    ∃ names : List String, found.map FileTree.name = names ++ way.map FileTree.name ∧
      cs.filter (!·.isOpening) = names.reverse.map .name := by
  induction cs generalizing way with
  | nil =>
    cases h
    exact ⟨[], rfl, rfl⟩
  | cons c cs ih =>
    obtain ⟨hc, hcs⟩ := List.ne_and_not_mem_of_not_mem_cons hup
    obtain ⟨here, above, rfl, _, ⟨hopening, hrest⟩ | ⟨rfl, _⟩ | ⟨item, _, rfl, hrest⟩⟩ :=
      follow_cases h
    · rw [List.filter_cons_of_neg (by simp [hopening])]
      exact ih hrest hcs
    · exact absurd rfl hc
    · obtain ⟨names, hfound, hnames⟩ := ih hrest hcs
      refine ⟨names ++ [item.name], ?_, ?_⟩
      · rw [hfound, List.map_cons, List.append_assoc, List.singleton_append]
      · rw [List.filter_cons_of_pos rfl, hnames, List.reverse_concat, List.map_cons]

/-! ## Ways of paths -/

theorem ne_empty_of_way {way : List FileTree} (h : files.way path = .ok way) : path ≠ "" := by
  rintro rfl
  cases h

theorem follow_of_way {way : List FileTree} (h : files.way path = .ok way) :
    follow [files.top] (files.fromTop path) = .ok way := by
  unfold FileSystem.way at h
  split at h
  · cases h
  · split at h
    · rename_i hfollow
      split at h
      · cases h
      · rw [hfollow, h]
    · cases h
    · exact h

/-- Paths that open alike start from the same directory. -/
theorem start_eq (h : p.opening = q.opening) : files.start p = files.start q := by
  simp only [start, ← Path.root_mem_opening, h]

theorem fromTop_eq (h : p.components = q.components) : files.fromTop p = files.fromTop q := by
  rw [fromTop, fromTop, start, start, h]

/-- A path that goes on with a name starts where it did. -/
theorem start_join {name : String} (hpath : path ≠ "") (hname : Path.IsName name) :
    files.start (path.join name) = files.start path :=
  start_eq (Path.opening_join hpath hname)

/-- A path that goes on with a name does so from the top directory. -/
theorem fromTop_join {name : String} (hpath : path ≠ "") (hname : Path.IsName name) :
    files.fromTop (path.join name) = files.fromTop path ++ [.name name] := by
  rw [fromTop, fromTop, start_join hpath hname, Path.components_join hpath hname,
    List.append_assoc]

/-- Components decide the way, where there is one. -/
theorem way_eq {way way' : List FileTree} (hp : files.way p = .ok way) (hq : files.way q = .ok way')
    (h : p.components = q.components) : way = way' := by
  have hway := follow_of_way hp
  rw [fromTop_eq h, follow_of_way hq] at hway
  exact (Except.ok.inj hway).symm

/-- A path that goes on with the name of an item leads to the item. -/
theorem way_join {here item : FileTree} {above : List FileTree}
    (hway : files.way path = .ok (here :: above)) (hitem : here.item? item.name = some item)
    (hname : Path.IsName item.name) :
    files.way (path.join item.name) = .ok (item :: here :: above) := by
  have hpath := ne_empty_of_way hway
  have hhere := FileTree.isDirectory_of_mem (FileTree.mem_of_item? hitem)
  have hempty : (path.join item.name).isEmpty = false := by
    rw [← Bool.not_eq_true, String.isEmpty_iff]
    exact Path.join_ne_empty hpath hname
  have hfollow : follow [files.top] (files.fromTop (path.join item.name)) =
      .ok (item :: here :: above) := by
    rw [fromTop_join hpath hname, follow_append, follow_of_way hway]
    simp [Except.bind, follow, hhere, hitem]
  rw [FileSystem.way, hempty, hfollow]
  cases item with
  | file name content => simp [Path.asksDirectory_join hpath hname]
  | directory name items => rfl

/-- What components lead to from a well-named way is well-named. -/
theorem wellNamed_of_follow {way found : List FileTree} {cs : List PathComponent}
    (hway : ∀ tree ∈ way, tree.WellNamed) (h : follow way cs = .ok found) :
    ∀ tree ∈ found, tree.WellNamed := by
  induction cs generalizing way with
  | nil =>
    cases h
    exact hway
  | cons c cs ih =>
    obtain ⟨here, above, rfl, _, ⟨_, hrest⟩ | ⟨_, hrest⟩ | ⟨item, hitem, _, hrest⟩⟩ :=
      follow_cases h
    · exact ih hway hrest
    · refine ih (fun tree htree => hway tree ?_) hrest
      split at htree
      · exact List.mem_cons.mpr (.inl (List.mem_singleton.mp htree))
      · exact List.mem_cons_of_mem _ htree
    · have hhere : here.WellNamed := hway here List.mem_cons_self
      exact ih (List.forall_mem_cons.mpr
        ⟨hhere.item (FileTree.mem_of_item? hitem), hway⟩) hrest

/-- What a path of well-named files leads to is well-named. -/
theorem wellNamed_of_way {way : List FileTree} (hfiles : files.top.WellNamed)
    (h : files.way path = .ok way) : ∀ tree ∈ way, tree.WellNamed :=
  wellNamed_of_follow (List.forall_mem_singleton.mpr hfiles) (follow_of_way h)

/-- Two paths of the same file that do not go up have the same components, if they open
alike. -/
theorem SamePlace.components_eq (h : files.SamePlace p q) (hp : .up ∉ p.components)
    (hq : .up ∉ q.components) (hopening : p.opening = q.opening) :
    p.components = q.components := by
  obtain ⟨way, hwayp, hwayq⟩ := h
  have hfromTop : ∀ path : Path, .up ∉ path.components → .up ∉ files.fromTop path := by
    intro path hpath hmem
    rw [fromTop, start] at hmem
    split at hmem <;> simp [hpath] at hmem
  obtain ⟨names, hnames, hfilter⟩ := names_of_follow (follow_of_way hwayp) (hfromTop p hp)
  obtain ⟨names', hnames', hfilter'⟩ := names_of_follow (follow_of_way hwayq) (hfromTop q hq)
  have hsame : names = names' := List.append_cancel_right (hnames.symm.trans hnames')
  have hall : (files.fromTop p).filter (!·.isOpening) =
      (files.fromTop q).filter (!·.isOpening) := by
    rw [hfilter, hfilter', hsame]
  -- Both start from the same directory, so what is left of either are its own components.
  simp only [fromTop, List.filter_append, start_eq hopening] at hall
  rw [p.components_eq_opening, q.components_eq_opening, hopening,
    List.append_cancel_left hall]

/-! ## Going on with names -/

/-- A path that leads to a file, and goes on with names from another path. -/
structure FoundFrom (files : FileSystem) (path p : Path) : Prop where
  leads : files.LeadsToFile p
  names : ∃ names : List String, p.components = path.components ++ names.map .name

namespace FoundFrom

/-- What is found from a path goes up where the path does. -/
theorem up_iff (h : files.FoundFrom path p) : .up ∈ p.components ↔ .up ∈ path.components := by
  obtain ⟨names, hnames⟩ := h.names
  rw [hnames]
  simp

/-- What is found from a path opens like the path. -/
theorem opening_eq (h : files.FoundFrom path p) : p.opening = path.opening := by
  obtain ⟨names, hnames⟩ := h.names
  have hnone : (names.map PathComponent.name).filter (·.isOpening) = [] := by
    simp [PathComponent.isOpening]
  rw [Path.opening, hnames, List.filter_append, hnone, List.append_nil, Path.opening]

end FoundFrom

end FileSystem

end ScopeLint
