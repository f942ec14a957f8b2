import Mathlib.Data.List.Basic
import ScopeLint.Proofs.Files.Paths

/-! # Paths below a path

The path of what some names lead to goes on with each of them (`Path.joinAll`).  Its components
are those of the path and the names (`Path.components_joinAll`), and it is written as the path,
a slash unless the path ends in one, and the names with slashes between them
(`Path.toList_joinAll`).

Taking the path off again leaves the names with slashes between them, however the path is written
(`Path.below_joinAll`).  The one exception is a dot behind `./`, as in `./.` or `././`: one dot is
taken off both, what is left of the path is the directory itself then, and nothing more is taken
off (`Path.seenFrom`).
-/

namespace ScopeLint

namespace Path

variable {path root : Path} {name : String} {names names' : List String} {text : List Char}

/-- The path of what some names lead to below a path. -/
def joinAll (path : Path) (names : List String) : Path := names.foldl join path

@[simp] theorem joinAll_nil (path : Path) : path.joinAll [] = path := rfl

@[simp] theorem joinAll_cons (path : Path) (name : String) (names : List String) :
    path.joinAll (name :: names) = (path.join name).joinAll names := rfl

theorem components_joinAll (hpath : path ≠ "") (hnames : ∀ name ∈ names, IsName name) :
    (path.joinAll names).components = path.components ++ names.map .name := by
  induction names generalizing path with
  | nil => simp
  | cons name names ih =>
    obtain ⟨hname, hrest⟩ := List.forall_mem_cons.mp hnames
    rw [joinAll_cons, ih (join_ne_empty hpath hname) hrest, components_join hpath hname,
      List.append_assoc]
    rfl

/-- The components of a longer path tell the names. -/
theorem eq_of_components_joinAll (hpath : path ≠ "") (hnames : ∀ name ∈ names, IsName name)
    (hnames' : ∀ name ∈ names', IsName name)
    (h : (path.joinAll names).components = (path.joinAll names').components) : names = names' := by
  rw [components_joinAll hpath hnames, components_joinAll hpath hnames'] at h
  exact (List.map_injective_iff.mpr fun _ _ => PathComponent.name.inj) (List.append_cancel_left h)

/-- Different names lead to different paths. -/
theorem joinAll_injective (hpath : path ≠ "") (hnames : ∀ name ∈ names, IsName name)
    (hnames' : ∀ name ∈ names', IsName name) (h : path.joinAll names = path.joinAll names') :
    names = names' :=
  eq_of_components_joinAll hpath hnames hnames' (congrArg components h)

/-! ### The text of a longer path -/

/-- What stands between a path and a name behind it. -/
def gap (path : Path) : List Char := if path.toList.getLast? = some '/' then [] else ['/']

theorem gap_eq (path : Path) : gap path = [] ∨ gap path = ['/'] := by
  unfold gap
  split
  · exact .inl rfl
  · exact .inr rfl

theorem endsWith_slash_iff (path : Path) :
    path.endsWith "/" = true ↔ path.toList.getLast? = some '/' := by
  rw [← String.endsWith_toSlice, String.Slice.endsWith_string_iff, List.getLast?_eq_some_iff]
  simp only [String.copy_toSlice]
  exact ⟨fun ⟨front, h⟩ => ⟨front, h.symm⟩, fun ⟨front, h⟩ => ⟨front, h.symm⟩⟩

theorem toList_join (hpath : path ≠ "") (name : String) :
    (path.join name).toList = path.toList ++ gap path ++ name.toList := by
  have hempty : path.isEmpty = false := by
    rw [← Bool.not_eq_true, String.isEmpty_iff]
    exact hpath
  rw [join, hempty, Bool.false_or]
  by_cases hslash : path.endsWith "/" = true
  · rw [if_pos hslash, gap, if_pos ((endsWith_slash_iff path).mp hslash)]
    simp
  · rw [if_neg hslash, gap, if_neg (mt (endsWith_slash_iff path).mpr hslash)]
    simp

/-- Behind a name comes a slash. -/
theorem gap_join (hpath : path ≠ "") (hname : IsName name) : gap (path.join name) = ['/'] := by
  refine if_neg fun hlast => hname.2.2.2 ?_
  rw [toList_join hpath, List.getLast?_append_of_ne_nil _ hname.toList_ne.1] at hlast
  exact List.mem_of_getLast? hlast

theorem toList_joinAll (hpath : path ≠ "") (hne : names ≠ [])
    (hnames : ∀ name ∈ names, IsName name) :
    (path.joinAll names).toList =
      path.toList ++ gap path ++ ['/'].intercalate (names.map String.toList) := by
  induction names generalizing path with
  | nil => exact absurd rfl hne
  | cons name names ih =>
    obtain ⟨hname, hrest⟩ := List.forall_mem_cons.mp hnames
    cases names with
    | nil => simp [toList_join hpath]
    | cons other rest =>
      rw [joinAll_cons, ih (join_ne_empty hpath hname) (List.cons_ne_nil _ _) hrest,
        gap_join hpath hname, toList_join hpath, List.map_cons (a := name),
        List.intercalate_cons_of_ne_nil (by simp)]
      simp only [List.append_assoc]

/-- Names with slashes between them do not begin with one. -/
theorem head?_intercalate (hnames : ∀ name ∈ names, IsName name) :
    (['/'].intercalate (names.map String.toList)).head? ≠ some '/' := by
  cases names with
  | nil => simp
  | cons name rest =>
    obtain ⟨hname, _⟩ := List.forall_mem_cons.mp hnames
    obtain ⟨c, cs, hcons⟩ := List.exists_cons_of_ne_nil hname.toList_ne.1
    have hne : c ≠ '/' := by
      rintro rfl
      exact hname.2.2.2 (hcons ▸ List.mem_cons_self)
    cases rest with
    | nil => simpa [hcons] using hne
    | cons other rest =>
      rw [List.map_cons, List.map_cons, List.intercalate_cons_cons, hcons]
      simpa using hne

/-! ### Texts at the head of a path -/

theorem after?_eq_some_iff {head rest : Path} :
    after? head path = some rest ↔ path.toList = head.toList ++ rest.toList := by
  unfold after?
  constructor
  · intro h
    split at h
    · rename_i hprefix
      rw [← Option.some.inj h, String.toList_ofList, ← String.length_toList]
      exact (List.prefix_iff_eq_append.mp (List.isPrefixOf_iff_prefix.mp hprefix)).symm
    · cases h
  · intro h
    rw [if_pos (by rw [h]; exact List.isPrefixOf_iff_prefix.mpr (List.prefix_append _ _)), h,
      ← String.length_toList, List.drop_left, String.ofList_toList]

theorem after?_eq_none_iff {head : Path} :
    after? head path = none ↔ ¬ head.toList <+: path.toList := by
  rw [after?, ← List.isPrefixOf_iff_prefix]
  split <;> simp_all

theorem without_of_append {head rest : Path} (h : path.toList = head.toList ++ rest.toList) :
    path.without head = rest := by
  rw [without, after?_eq_some_iff.mpr h]
  rfl

theorem without_of_not_prefix {head : Path} (h : ¬ head.toList <+: path.toList) :
    path.without head = path := by
  rw [without, after?_eq_none_iff.mpr h]
  rfl

/-- The slash between a path and what follows it can be taken off. -/
theorem without_slash (hpath : text.head? ≠ some '/') :
    without (String.ofList (gap root ++ text)) "/" = String.ofList text := by
  rcases gap_eq root with hgap | hgap
  · rw [hgap, List.nil_append]
    refine without_of_not_prefix ?_
    rw [String.toList_ofList]
    rintro ⟨rest, h⟩
    rw [String.toList_ofList] at h
    exact hpath (by rw [← h]; rfl)
  · rw [hgap]
    exact without_of_append (by simp)

/-! ### Directories written as a dot -/

/-- The first stretch of a text is the text, or comes before its first slash. -/
theorem split_eq_cons {first : List Char} {others : List (List Char)}
    (h : split text = first :: others) : text = first ∨ ∃ rest, text = first ++ '/' :: rest := by
  induction text generalizing first others with
  | nil =>
    rw [split, List.cons.injEq] at h
    exact .inl h.1
  | cons c text ih =>
    by_cases hc : c = '/'
    · subst hc
      rw [split, if_pos rfl, List.cons.injEq] at h
      exact .inr ⟨text, by rw [← h.1]; rfl⟩
    · obtain ⟨first', others', hsplit, hcons⟩ := split_cons_of_ne hc text
      rw [hcons, List.cons.injEq] at h
      rcases ih hsplit with htext | ⟨rest, htext⟩
      · exact .inl (by rw [← h.1, htext])
      · exact .inr ⟨rest, by rw [← h.1, htext]; rfl⟩

theorem isHere_iff : root.isHere = true ↔ root.components = [.here] := decide_eq_true_iff

/-- A path written as the directory itself is a dot, or begins with a dot and a slash. -/
theorem eq_dot_or_prefix_of_isHere (h : root.isHere = true) :
    root = "." ∨ "./".toList <+: root.toList := by
  rw [isHere_iff, components_eq] at h
  cases hsplit : split root.toList with
  | nil => exact absurd hsplit (split_ne_nil _)
  | cons first others =>
    rw [hsplit] at h
    have hfirst : first = ['.'] := by
      by_contra hne
      have hbody : .here ∉ (first :: others).filterMap component? := by
        intro hmem
        obtain ⟨stretch, _, hstretch⟩ := List.mem_filterMap.mp hmem
        exact Bool.noConfusion (isOpening_of_component? hstretch)
      have hleading : .here ∉ leading (first :: others) := by
        unfold leading
        split <;> simp_all
      exact List.not_mem_append hleading hbody (h ▸ List.mem_singleton_self _)
    subst hfirst
    rcases split_eq_cons hsplit with htext | ⟨rest, htext⟩
    · exact .inl (String.toList_injective htext)
    · exact .inr ⟨rest, htext.symm⟩

theorem ne_empty_of_isHere (h : root.isHere = true) : root ≠ "" := by
  rintro rfl
  cases h

/-! ### What is seen from a directory -/

/-- Whether a path is written as the directory itself, behind a dot and a slash. -/
def isDotted (root : Path) : Bool := (after? "./" root).any isHere

/-- **Where a directory sees what some names lead to**: at the names with slashes between them.
Only a directory written as a dot behind `./` still has that dot before them. -/
def seenFrom (root : Path) (names : List String) : Path :=
  if root.isDotted then (root.without "./").joinAll names else "/".intercalate names

/-- What is left when the text of a directory and a slash are taken off, where both stand there. -/
theorem below_of_text {p : Path}
    (hp : (p.without "./").toList = (root.without "./").toList ++ (gap root ++ text))
    (hhere : (root.without "./").isHere = false)
    (hslash : '/' ∉ (p.without "./").toList → (p.without "./").toList = text)
    (htext : text.head? ≠ some '/') : p.below root = String.ofList text := by
  unfold below
  by_cases hmem : '/' ∈ (p.without "./").toList
  · have hafter : after? (root.without "./") (p.without "./") =
        some (String.ofList (gap root ++ text)) :=
      after?_eq_some_iff.mpr (by rw [hp, String.toList_ofList])
    rw [if_neg (by simp [hhere, hmem]), hafter]
    exact without_slash htext
  · rw [if_pos (by simp [hmem]), ← hslash hmem, String.ofList_toList]

/-- Only behind a slash there is no gap. -/
theorem getLast?_of_gap (h : '/' ∉ gap root) : root.toList.getLast? = some '/' := by
  unfold gap at h
  split at h
  · assumption
  · exact absurd (List.mem_singleton_self _) h

section Below

variable (hroot : root ≠ "") (hne : names ≠ []) (hnames : ∀ name ∈ names, IsName name)
include hroot hne hnames

/-- A path that begins with no dot and slash begins with none when it goes on, but for a dot. -/
theorem without_dot_of_not_prefix (hdot : root ≠ ".") (hnot : ¬ "./".toList <+: root.toList) :
    (root.joinAll names).without "./" = root.joinAll names := by
  refine without_of_not_prefix fun hprefix => ?_
  rw [toList_joinAll hroot hne hnames] at hprefix
  -- The first two characters are those of the path, or it has only one.
  match hchars : root.toList with
  | [] => exact hroot (String.toList_eq_nil_iff.mp hchars)
  | [c] =>
    rw [hchars] at hprefix
    have hc : '.' = c := (List.cons_prefix_cons.mp hprefix).1
    exact hdot (String.toList_injective (hchars.trans (by rw [← hc]; rfl)))
  | c :: d :: rest =>
    rw [hchars] at hprefix hnot
    obtain ⟨hc, hrest⟩ := List.cons_prefix_cons.mp hprefix
    obtain ⟨hd, _⟩ := List.cons_prefix_cons.mp hrest
    exact hnot (hc ▸ hd ▸ ⟨rest, rfl⟩)

/-- What is seen from a directory written behind a dot and a slash. -/
theorem below_of_after {rest : Path} (h : after? "./" root = some rest) :
    (root.joinAll names).below root = root.seenFrom names := by
  have htext := toList_joinAll hroot hne hnames
  have hchars : root.toList = "./".toList ++ rest.toList := after?_eq_some_iff.mp h
  have hrest : root.without "./" = rest := without_of_append hchars
  have hpath : (root.joinAll names).without "./" = String.ofList
      (rest.toList ++ (gap root ++ ['/'].intercalate (names.map String.toList))) := by
    refine without_of_append ?_
    rw [htext, hchars]
    simp only [String.toList_ofList, List.append_assoc]
  have hdotted : root.isDotted = rest.isHere := by rw [isDotted, h, Option.any_some]
  rw [seenFrom, hrest, hdotted]
  by_cases hhere : rest.isHere = true
  · -- The directory itself is left of the path, and nothing is taken off.
    have hnonempty := ne_empty_of_isHere hhere
    have hgap : gap root = gap rest := by
      rw [gap, gap, hchars, List.getLast?_append_of_ne_nil _
        (mt String.toList_eq_nil_iff.mp hnonempty)]
    rw [below, hrest, hpath, if_pos hhere, if_pos (by rw [hhere]; rfl)]
    apply String.toList_injective
    rw [toList_joinAll hnonempty hne hnames, String.toList_ofList, hgap, List.append_assoc]
  · have hslash : '/' ∉ ((root.joinAll names).without "./").toList →
        ((root.joinAll names).without "./").toList =
          ['/'].intercalate (names.map String.toList) := by
      rw [hpath, String.toList_ofList]
      intro hslash
      rw [List.mem_append, List.mem_append, not_or, not_or] at hslash
      obtain ⟨hnot, hgap, _⟩ := hslash
      -- The path ends in a slash, and that is not in what is behind the first one.
      have hlast := getLast?_of_gap hgap
      have hempty : rest.toList = [] := by
        by_contra hsome
        rw [hchars, List.getLast?_append_of_ne_nil _ hsome] at hlast
        exact hnot (List.mem_of_getLast? hlast)
      rw [hempty, gap, if_pos hlast]
      rfl
    rw [if_neg hhere, below_of_text (by rw [hpath, hrest, String.toList_ofList])
      (by rw [hrest]; exact Bool.eq_false_iff.mpr hhere) hslash (head?_intercalate hnames)]
    exact String.toList_injective (by simp)

/-- **Taking a directory off the path of what lies below it leaves the names**, with slashes
between them, and a dot before them if the directory is written as a dot behind `./`. -/
theorem below_joinAll : (root.joinAll names).below root = root.seenFrom names := by
  cases h : after? "./" root with
  | some rest => exact below_of_after hroot hne hnames h
  | none =>
    have hnot := after?_eq_none_iff.mp h
    have hrest : root.without "./" = root := without_of_not_prefix hnot
    have htext := toList_joinAll hroot hne hnames
    rw [seenFrom, isDotted, h, Option.any_none, if_neg Bool.false_ne_true]
    by_cases hdot : root = "."
    · -- A dot goes with the slash behind it.
      subst hdot
      have hgap : gap "." = ['/'] := by decide
      have hpath : (joinAll "." names).without "./" = "/".intercalate names :=
        without_of_append (by rw [htext, hgap, String.toList_intercalate]; simp)
      have hhere : isHere "." = true := by decide
      rw [below, hrest, hpath, hhere, Bool.true_or, if_pos rfl]
    · have hhere : root.isHere = false := by
        rw [Bool.eq_false_iff]
        exact fun hhere => (eq_dot_or_prefix_of_isHere hhere).elim hdot hnot
      have hpath := without_dot_of_not_prefix hroot hne hnames hdot hnot
      have hslash : '/' ∈ (root.joinAll names).toList := by
        rw [htext, List.mem_append, List.mem_append]
        by_cases hgap : '/' ∈ gap root
        · exact .inl (.inr hgap)
        · exact .inl (.inl (List.mem_of_getLast? (getLast?_of_gap hgap)))
      rw [below_of_text (by rw [hpath, hrest, htext, List.append_assoc]) (by rw [hrest, hhere])
        (by rw [hpath]; exact fun hnone => absurd hslash hnone) (head?_intercalate hnames)]
      exact String.toList_injective (by simp)

end Below

end Path

end ScopeLint
