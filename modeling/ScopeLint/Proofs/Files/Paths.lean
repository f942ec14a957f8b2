import ScopeLint.Files.FileSystem

/-! # The components of longer paths

A path that goes on with a name has one component more (`Path.components_join`), and asks
for no directory (`Path.asksDirectory_join`).  A slash or a dot is a component at the head of a
path alone: what opens a path (`Path.opening`) stands before its other components
(`Path.components_eq_opening`).
-/

namespace ScopeLint

/-- Whether a component says where a path starts from. -/
def PathComponent.isOpening : PathComponent → Bool
  | root | here => true
  | up | name _ => false

namespace Path

/-- A name that a file or directory may have: it is not empty, it does not stand for a
directory by dots, and has no slash. -/
def IsName (name : String) : Prop :=
  name ≠ "" ∧ name ≠ "." ∧ name ≠ ".." ∧ '/' ∉ name.toList

instance (name : String) : Decidable (IsName name) := inferInstanceAs (Decidable (_ ∧ _))

theorem IsName.toList_ne {name : String} (h : IsName name) :
    name.toList ≠ [] ∧ name.toList ≠ ['.'] ∧ name.toList ≠ ['.', '.'] := by
  have hlist : ∀ text : List Char, name ≠ String.ofList text → name.toList ≠ text := by
    rintro text hne rfl
    exact hne String.ofList_toList.symm
  exact ⟨hlist [] h.1, hlist ['.'] h.2.1, hlist ['.', '.'] h.2.2.1⟩

/-! ## Stretches between slashes -/

theorem split_ne_nil (text : List Char) : split text ≠ [] := by
  cases text with
  | nil => exact List.cons_ne_nil _ _
  | cons c rest =>
    rw [split]
    split
    · exact List.cons_ne_nil _ _
    · split <;> exact List.cons_ne_nil _ _

theorem split_cons_of_ne {c : Char} (hc : c ≠ '/') (rest : List Char) :
    ∃ first others, split rest = first :: others ∧ split (c :: rest) = (c :: first) :: others := by
  obtain ⟨first, others, hrest⟩ := List.exists_cons_of_ne_nil (split_ne_nil rest)
  exact ⟨first, others, hrest, by rw [split, if_neg hc, hrest]⟩

theorem split_append_slash (text rest : List Char) :
    split (text ++ '/' :: rest) = split text ++ split rest := by
  induction text with
  | nil => rfl
  | cons c text ih =>
    by_cases hc : c = '/'
    · subst hc
      exact congrArg ([] :: ·) ih
    · obtain ⟨first, others, htext, hcons⟩ := split_cons_of_ne hc text
      rw [hcons, List.cons_append, split, if_neg hc, ih, htext]
      rfl

theorem split_of_not_mem {text : List Char} (h : '/' ∉ text) : split text = [text] := by
  induction text with
  | nil => rfl
  | cons c text ih =>
    obtain ⟨hc, htext⟩ := List.ne_and_not_mem_of_not_mem_cons h
    rw [split, if_neg (Ne.symm hc), ih htext]

theorem eq_nil_of_split {text : List Char} (h : split text = [[]]) : text = [] := by
  cases text with
  | nil => rfl
  | cons c rest =>
    by_cases hc : c = '/'
    · rw [split, if_pos hc, List.cons.injEq] at h
      exact absurd h.2 (split_ne_nil rest)
    · obtain ⟨first, others, _, hcons⟩ := split_cons_of_ne hc rest
      rw [hcons, List.cons.injEq] at h
      exact absurd h.1 (List.cons_ne_nil c first)

/-! ## Components -/

/-- What the first stretch of a path says, where it is a component only there. -/
def leading : List (List Char) → List PathComponent
  | ['.'] :: _ => [.here]
  | [] :: _ :: _ => [.root]
  | _ => []

theorem components_eq (path : Path) :
    path.components = leading (split path.toList) ++ (split path.toList).filterMap component? :=
  rfl

theorem leading_append {stretches : List (List Char)} (hne : stretches ≠ [])
    (hempty : stretches ≠ [[]]) (more : List (List Char)) :
    leading (stretches ++ more) = leading stretches := by
  match stretches with
  | [] => exact absurd rfl hne
  | [[]] => exact absurd rfl hempty
  | [] :: _ :: _ => rfl
  | ['.'] :: _ => rfl
  | (c :: d :: rest) :: others => simp [leading]
  | [c] :: others =>
    by_cases hc : c = '.'
    · subst hc
      rfl
    · simp [leading, hc]

theorem leading_concat {stretches : List (List Char)} (hne : stretches ≠ [])
    (s t : List Char) : leading (stretches ++ [s]) = leading (stretches ++ [t]) := by
  by_cases hempty : stretches = [[]]
  · subst hempty
    rfl
  · rw [leading_append hne hempty, leading_append hne hempty]

theorem component?_of_isName {name : String} (h : IsName name) :
    component? name.toList = some (.name name) := by
  obtain ⟨hne, hdot, hdots⟩ := h.toList_ne
  rw [component?, if_neg (not_or_intro hne hdot), if_neg hdots, String.ofList_toList]

theorem isOpening_of_component? {stretch : List Char} {c : PathComponent}
    (h : component? stretch = some c) : c.isOpening = false := by
  rw [component?] at h
  split at h
  · cases h
  · split at h <;> cases h <;> rfl

/-- The slash or the dot that a path opens with. -/
def opening (path : Path) : List PathComponent := path.components.filter (·.isOpening)

theorem root_mem_opening {path : Path} : .root ∈ path.opening ↔ .root ∈ path.components := by
  rw [opening, List.mem_filter]
  exact and_iff_left rfl

/-- What opens a path stands at its head alone. -/
theorem components_eq_opening (path : Path) :
    path.components = path.opening ++ path.components.filter (!·.isOpening) := by
  have hhead : ∀ c ∈ leading (split path.toList), c.isOpening = true := by
    unfold leading
    split <;> simp [PathComponent.isOpening]
  have hbody : ∀ c ∈ (split path.toList).filterMap component?, c.isOpening = false := by
    intro c hc
    obtain ⟨stretch, _, hstretch⟩ := List.mem_filterMap.mp hc
    exact isOpening_of_component? hstretch
  have hopening : path.opening = leading (split path.toList) := by
    rw [opening, components_eq, List.filter_append, List.filter_eq_self.mpr hhead,
      List.filter_eq_nil_iff.mpr (by simpa using hbody), List.append_nil]
  have hrest : path.components.filter (!·.isOpening) =
      (split path.toList).filterMap component? := by
    rw [components_eq, List.filter_append, List.filter_eq_nil_iff.mpr (by simpa using hhead),
      List.filter_eq_self.mpr (by simpa using hbody), List.nil_append]
  rw [hopening, hrest, ← components_eq]

/-! ## Going on with a name -/

/-- The stretches of a path that goes on with a name: those of the path and the name, but
for an empty stretch at the end of the path. -/
theorem exists_split_join {path : Path} {name : String} (hpath : path ≠ "") (hname : IsName name) :
    ∃ stretches, split (path.join name).toList = stretches ++ [name.toList] ∧
      leading (stretches ++ [name.toList]) = leading (split path.toList) ∧
      stretches.filterMap component? = (split path.toList).filterMap component? := by
  have hsplit : split name.toList = [name.toList] := split_of_not_mem hname.2.2.2
  have hempty : path.isEmpty = false := by
    rw [← Bool.not_eq_true, String.isEmpty_iff]
    exact hpath
  rw [join, hempty, Bool.false_or]
  by_cases hslash : path.endsWith "/" = true
  · obtain ⟨front, hfront⟩ : ['/'] <:+ path.toList := by
      rw [← String.endsWith_toSlice, String.Slice.endsWith_string_iff] at hslash
      simpa using hslash
    rw [if_pos hslash, String.toList_append, ← hfront, List.append_assoc, List.singleton_append,
      split_append_slash, split_append_slash, hsplit]
    exact ⟨split front, rfl, leading_concat (split_ne_nil front) _ _,
      by rw [List.filterMap_append]; simp [split, component?]⟩
  · rw [if_neg hslash, String.toList_append, String.toList_append, List.append_assoc]
    refine ⟨split path.toList, ?_, leading_append (split_ne_nil _) ?_ _, rfl⟩
    · rw [← hsplit]
      exact split_append_slash path.toList name.toList
    · intro h
      exact hpath (String.toList_eq_nil_iff.mp (eq_nil_of_split h))

theorem components_join {path : Path} {name : String} (hpath : path ≠ "") (hname : IsName name) :
    (path.join name).components = path.components ++ [.name name] := by
  obtain ⟨stretches, hsplit, hleading, hbody⟩ := exists_split_join hpath hname
  rw [components_eq, hsplit, hleading, List.filterMap_append, hbody, ← List.append_assoc,
    ← components_eq, List.filterMap_cons_some (component?_of_isName hname), List.filterMap_nil]

/-- A path that goes on opens as it did. -/
theorem opening_join {path : Path} {name : String} (hpath : path ≠ "") (hname : IsName name) :
    (path.join name).opening = path.opening := by
  rw [opening, components_join hpath hname, List.filter_append]
  exact List.append_nil _

theorem join_ne_empty {path : Path} {name : String} (hpath : path ≠ "") (hname : IsName name) :
    path.join name ≠ "" := by
  intro h
  have hcomponents := components_join hpath hname
  rw [h] at hcomponents
  exact List.append_ne_nil_of_right_ne_nil _ (List.cons_ne_nil _ _) hcomponents.symm

theorem asksDirectory_join {path : Path} {name : String} (hpath : path ≠ "")
    (hname : IsName name) : FileSystem.asksDirectory (path.join name) = false := by
  obtain ⟨stretches, hsplit, _⟩ := exists_split_join hpath hname
  obtain ⟨hne, hdot, hdots⟩ := hname.toList_ne
  rw [FileSystem.asksDirectory, hsplit, List.getLast?_concat]
  simp [hne, hdot, hdots]

end Path

end ScopeLint
