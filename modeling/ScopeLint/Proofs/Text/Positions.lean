import ScopeLint.Proofs.Text.Written

/-! # Positions of offsets

The position of an offset is told by the octets before it: the line by the line
breaks among them, and the column by the UTF-16 code units of those after the last
line break (`Source.positionOf_pointAt`).  It need not be an offset between two
characters: what is left of a character counts as a broken one.
-/

namespace ScopeLint.Source

/-- The octets before an offset on its line. -/
def lineBefore (source : Source) (offset : Nat) : List UInt8 :=
  (source.take offset).rtakeWhile (· ≠ newline)

theorem foldl_advance_eq (bytes : List UInt8) :
    bytes.foldl advance ⟨0, 0⟩ =
      ⟨bytes.count newline, (bytes.rtakeWhile (· ≠ newline)).length⟩ := by
  induction bytes using List.reverseRecOn with
  | nil => rfl
  | append_singleton bytes b ih =>
    rw [List.foldl_append, ih, List.foldl_cons, List.foldl_nil, advance, List.count_append]
    by_cases hb : b = newline
    · rw [if_pos hb, List.rtakeWhile_concat_neg _ _ _ (by simp [hb]), hb]
      rfl
    · rw [if_neg hb, List.rtakeWhile_concat_pos _ _ _ (by simp [hb]),
        List.count_singleton, if_neg (by simp [hb]), List.length_append]
      rfl

variable {source : Source} {offset : Nat}

theorem pointAt_eq (source : Source) (offset : Nat) :
    source.pointAt offset =
      ⟨(source.take offset).count newline, (source.lineBefore offset).length⟩ :=
  foldl_advance_eq _

/-- **The position of an offset**, by line breaks and by code units on its line. -/
theorem positionOf_pointAt (h : offset ≤ source.length) :
    source.positionOf offset (source.pointAt offset) =
      ⟨(source.take offset).count newline,
        Utf16.units (Utf8.decodeLossy (source.lineBefore offset))⟩ := by
  obtain ⟨head, hhead⟩ : ∃ head, head ++ source.lineBefore offset = source.take offset :=
    List.rtakeWhile_suffix (· ≠ newline) (source.take offset)
  rw [positionOf, pointAt_eq]
  generalize source.lineBefore offset = line at hhead
  have hlength : head.length + line.length = offset := by
    rw [← List.length_append, hhead, List.length_take, Nat.min_eq_left h]
  have hsource : source = head ++ (line ++ source.drop offset) := by
    rw [← List.append_assoc, hhead, List.take_append_drop]
  have hstart : offset - line.length = head.length := by omega
  have hline : (source.drop (offset - line.length)).take line.length = line := by
    rw [hstart, hsource, List.drop_left, List.take_left]
  have hinside : line.length ≤ offset ∧ offset ≤ source.length := ⟨by omega, h⟩
  rw [Utf16.column, if_pos hinside, hline]

end ScopeLint.Source
