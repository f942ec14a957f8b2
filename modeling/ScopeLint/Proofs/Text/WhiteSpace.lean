import Mathlib.Data.List.DropRight
import ScopeLint.Text.WhiteSpace

/-! # White space at the end of a text

A text loses nothing at its end that shows: what ends in a character that shows stays whole
(`WhiteSpace.prefix_trimEnd`).
-/

namespace ScopeLint.WhiteSpace

/-- A text that does not show. -/
def Blank (text : List Char) : Prop := ∀ c ∈ text, isWhiteSpace c = true

theorem trimEnd_prefix_self (line : List Char) : trimEnd line <+: line := List.rdropWhile_prefix _ _

theorem trimEnd_eq_nil_iff {line : List Char} : trimEnd line = [] ↔ Blank line :=
  List.rdropWhile_eq_nil_iff

/-- What a text loses at its end does not show. -/
theorem exists_blank (line : List Char) : ∃ blanks, Blank blanks ∧ trimEnd line ++ blanks = line :=
  ⟨line.rtakeWhile isWhiteSpace, fun _ => List.mem_rtakeWhile_imp,
    List.rdropWhile_append_rtakeWhile⟩

theorem trimEnd_append (before rest : List Char) :
    trimEnd (before ++ rest) =
      if trimEnd rest = [] then trimEnd before else before ++ trimEnd rest := by
  unfold trimEnd
  rw [List.reverse_append, List.dropWhile_append]
  simp only [List.isEmpty_iff, List.reverse_eq_nil_iff]
  split
  · rfl
  · rw [List.reverse_append, List.reverse_reverse]

/-- White space is lost from the end only. -/
theorem trimEnd_append_of_shows {before rest : List Char} (h : ¬ Blank rest) :
    trimEnd (before ++ rest) = before ++ trimEnd rest := by
  rw [trimEnd_append, if_neg (trimEnd_eq_nil_iff.not.mpr h)]

theorem trimEnd_concat {before : List Char} {c : Char} (h : isWhiteSpace c = false) :
    trimEnd (before ++ [c]) = before ++ [c] :=
  List.rdropWhile_concat_neg _ _ _ (by simp [h])

/-- What ends in a character that shows stays whole. -/
theorem prefix_trimEnd {before rest : List Char} {c : Char} (h : isWhiteSpace c = false) :
    before ++ [c] <+: trimEnd (before ++ [c] ++ rest) := by
  rw [trimEnd_append]
  split
  · exact (trimEnd_concat h).symm ▸ List.prefix_refl _
  · exact List.prefix_append _ _

end ScopeLint.WhiteSpace
