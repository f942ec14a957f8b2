import Mathlib.Data.Char
import Mathlib.Data.List.Lex
import Mathlib.Order.Lattice
import ScopeLint.Files.Path

/-! # Paths in order

Components are in a linear order, and so are lists of components by the first in which
they differ.  A sorted list of paths is increasing in the components of the paths
(`Path.pairwise_sort`), so equal components stand side by side in it, and a list without
the repeated ones is strictly increasing (`Path.pairwise_dropRepeated`) and has the same
components (`Path.exists_mem_dropRepeated`).
-/

namespace ScopeLint

namespace PathComponent

theorem name_before_name {s t : String} :
    (name s).before (name t) = true ↔ s.toList < t.toList := by
  rw [before, decide_eq_true_eq]
  exact Iff.rfl

instance : IsStrictTotalOrder PathComponent (fun a b => a.before b = true) where
  irrefl
    | .root | .here | .up => by decide
    | .name s => by
      rw [name_before_name]
      exact lt_irrefl _
  trans a b c := by
    cases a <;> cases b <;> cases c
    case name.name.name =>
      rw [name_before_name, name_before_name, name_before_name]
      exact lt_trans
    all_goals simp [before, rank]
  trichotomous a b := by
    cases a <;> cases b
    case name.name s t =>
      rw [name_before_name, name_before_name, not_lt, not_lt]
      intro hts hst
      rw [String.toList_injective (le_antisymm hst hts)]
    all_goals simp [before, rank]

instance : LinearOrder PathComponent := linearOrderOfSTO fun a b => a.before b = true

theorem before_iff {a b : PathComponent} : a.before b = true ↔ a < b := Iff.rfl

end PathComponent

namespace Path

theorem componentsBefore_iff {as bs : List PathComponent} :
    componentsBefore as bs = true ↔ as < bs := by
  induction as generalizing bs with
  | nil => cases bs <;> simp [componentsBefore]
  | cons a as ih =>
    cases bs with
    | nil => simp [componentsBefore]
    | cons b bs =>
      rw [componentsBefore, List.cons_lt_cons_iff, Bool.or_eq_true, Bool.and_eq_true,
        Bool.not_eq_true', ← Bool.not_eq_true, ih, PathComponent.before_iff,
        PathComponent.before_iff]
      constructor
      · rintro (h | ⟨h, htail⟩)
        · exact .inl h
        · rcases lt_trichotomy a b with hlt | heq | hgt
          · exact .inl hlt
          · exact .inr ⟨heq, htail⟩
          · exact absurd hgt h
      · rintro (h | ⟨rfl, htail⟩)
        · exact .inl h
        · exact .inr ⟨lt_irrefl a, htail⟩

theorem precedes_iff {p q : Path} : precedes p q = true ↔ p.components ≤ q.components := by
  rw [precedes, Bool.not_eq_true', ← Bool.not_eq_true, componentsBefore_iff, not_lt]

/-! ## Sorting -/

theorem pairwise_sort (paths : List Path) :
    (sort paths).Pairwise fun p q => p.components ≤ q.components := by
  refine (List.pairwise_mergeSort ?_ ?_ paths).imp precedes_iff.mp
  · intro p q r
    rw [precedes_iff, precedes_iff, precedes_iff]
    exact le_trans
  · intro p q
    rw [Bool.or_eq_true, precedes_iff, precedes_iff]
    exact le_total _ _

@[simp] theorem mem_sort {p : Path} {paths : List Path} : p ∈ sort paths ↔ p ∈ paths :=
  List.mem_mergeSort

/-- Sorted paths of different components are strictly increasing in them. -/
theorem pairwise_sort_of_distinct {paths : List Path}
    (h : paths.Pairwise fun p q => p.components ≠ q.components) :
    (sort paths).Pairwise fun p q => p.components < q.components := by
  have hdistinct : (sort paths).Pairwise fun p q => p.components ≠ q.components :=
    ((List.mergeSort_perm paths precedes).pairwise_iff fun h => Ne.symm h).mpr h
  exact (pairwise_sort paths).imp₂ (fun _ _ hle hne => lt_of_le_of_ne hle hne) hdistinct

/-! ## Leaving out repetitions -/

theorem go_sublist (last : Path) (paths : List Path) :
    (dropRepeated.go last paths).Sublist paths := by
  induction paths generalizing last with
  | nil => exact .slnil
  | cons p rest ih =>
    rw [dropRepeated.go]
    split
    · exact .cons p (ih last)
    · exact .cons_cons p (ih p)

/-- What is left is left as it was. -/
theorem dropRepeated_sublist : (paths : List Path) → (dropRepeated paths).Sublist paths
  | [] => .slnil
  | p :: rest => .cons_cons p (go_sublist p rest)

theorem pairwise_go {last : Path} {paths : List Path}
    (h : (last :: paths).Pairwise fun p q => p.components ≤ q.components) :
    (last :: dropRepeated.go last paths).Pairwise fun p q => p.components < q.components := by
  induction paths generalizing last with
  | nil => exact List.pairwise_singleton _ _
  | cons p rest ih =>
    obtain ⟨hlast, hrest⟩ := List.pairwise_cons.mp h
    rw [dropRepeated.go]
    split
    · exact ih (h.sublist (.cons_cons last (List.sublist_cons_self p rest)))
    · rename_i hne
      have htail := ih hrest
      have hlt : last.components < p.components :=
        lt_of_le_of_ne (hlast p List.mem_cons_self) (Ne.symm hne)
      refine List.pairwise_cons.mpr ⟨?_, htail⟩
      intro q hq
      rcases List.mem_cons.mp hq with rfl | hq
      · exact hlt
      · exact hlt.trans ((List.pairwise_cons.mp htail).1 q hq)

theorem pairwise_dropRepeated {paths : List Path}
    (h : paths.Pairwise fun p q => p.components ≤ q.components) :
    (dropRepeated paths).Pairwise fun p q => p.components < q.components := by
  cases paths with
  | nil => exact .nil
  | cons p rest => exact pairwise_go h

theorem exists_mem_go {last p : Path} {paths : List Path} (hp : p ∈ last :: paths) :
    ∃ q ∈ last :: dropRepeated.go last paths, q.components = p.components := by
  induction paths generalizing last with
  | nil => exact ⟨p, hp, rfl⟩
  | cons r rest ih =>
    rw [dropRepeated.go]
    split
    · rename_i heq
      rcases List.mem_cons.mp hp with rfl | hp
      · exact ⟨p, List.mem_cons_self, rfl⟩
      · rcases List.mem_cons.mp hp with rfl | hp
        · exact ⟨last, List.mem_cons_self, heq.symm⟩
        · exact ih (List.mem_cons_of_mem last hp)
    · rcases List.mem_cons.mp hp with rfl | hp
      · exact ⟨p, List.mem_cons_self, rfl⟩
      · obtain ⟨q, hq, heq⟩ := ih hp
        exact ⟨q, List.mem_cons_of_mem last hq, heq⟩

/-- What is left out is left with the same components. -/
theorem exists_mem_dropRepeated {p : Path} {paths : List Path} (hp : p ∈ paths) :
    ∃ q ∈ dropRepeated paths, q.components = p.components := by
  cases paths with
  | nil => exact absurd hp List.not_mem_nil
  | cons first rest => exact exists_mem_go hp

end Path

end ScopeLint
