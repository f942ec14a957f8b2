import ScopeLint.Proofs.Text.Decoding
import ScopeLint.Text.Source

/-! # Later places in a text come later

Two nodes are told apart by line and UTF-16 column.  When a parser's points are
those of the offsets (`Source.pointAt`), a node that starts at a later offset has
a later line, or the same line and a later column (`Source.positionOf_lt`).  The
column needs that a character can start where the first node does: inside a
character, two offsets may have the same column.
-/

namespace ScopeLint

namespace Utf8

theorem run_inside_ne_nil : ∀ (bytes : List UInt8) (value owed low high : Nat),
    (Reading.inside value owed low high).run bytes ≠ []
  | [], _, _, _, _ => List.cons_ne_nil _ _
  | b :: bytes, value, owed, low, high => by
      rw [run_cons]
      by_cases hb : low ≤ b.toNat ∧ b.toNat ≤ high
      · cases owed with
        | zero =>
          rw [step_last hb]
          exact List.cons_ne_nil _ _
        | succ owed =>
          rw [step_more hb]
          exact run_inside_ne_nil bytes _ _ _ _
      · rw [step_broken hb]
        exact List.cons_ne_nil _ _

/-- An octet is read as something. -/
theorem pieces_cons_ne_nil (b : UInt8) (rest : List UInt8) : pieces (b :: rest) ≠ [] := by
  show Reading.between.run (b :: rest) ≠ []
  rw [run_cons]
  rcases fresh_cases b.toNat with ⟨_, hf⟩ | ⟨r, hbegun, hf⟩ | hf
  · rw [Reading.step, hf]
    exact List.cons_ne_nil _ _
  · obtain ⟨value, owed, low, high, rfl, _, _⟩ := hbegun.exists_inside
    rw [Reading.step, hf]
    exact run_inside_ne_nil rest value owed low high
  · rw [Reading.step, hf]
    exact List.cons_ne_nil _ _

end Utf8

namespace Utf16

theorem units_append : ∀ text rest : List Char, units (text ++ rest) = units text + units rest
  | [], _ => (Nat.zero_add _).symm
  | c :: text, rest => by
      rw [List.cons_append, units, units, units_append text rest, Nat.add_assoc]

theorem units_pos {text : List Char} (h : text ≠ []) : 0 < units text := by
  cases text with
  | nil => exact absurd rfl h
  | cons c rest =>
    have hc : 0 < unitsOf c := by unfold unitsOf; split <;> decide
    rw [units]
    omega

/-- What starts with a character makes a text longer. -/
theorem units_decodeLossy_lt (before : List UInt8) {b : UInt8}
    (hb : Utf8.isContinuation b = false) (rest : List UInt8) :
    units (Utf8.decodeLossy before) < units (Utf8.decodeLossy (before ++ b :: rest)) := by
  have hne : (Utf8.pieces (b :: rest)).map (fun piece => piece.getD '\ufffd') ≠ [] :=
    fun h => Utf8.pieces_cons_ne_nil b rest (List.map_eq_nil_iff.mp h)
  have hpos := units_pos hne
  rw [Utf8.decodeLossy, Utf8.decodeLossy, Utf8.pieces_append hb, List.map_append, units_append]
  omega

end Utf16

namespace Source

/-! ### Points -/

theorem row_le_foldl : ∀ (bytes : List UInt8) (p : Point), p.row ≤ (bytes.foldl advance p).row
  | [], _ => Nat.le_refl _
  | b :: bytes, p => by
      rw [List.foldl_cons]
      refine Nat.le_trans ?_ (row_le_foldl bytes (advance p b))
      unfold advance
      split
      · exact Nat.le_succ _
      · exact Nat.le_refl _

/-- On one line the column counts the octets. -/
theorem foldl_same_row : ∀ (bytes : List UInt8) {p : Point},
    (bytes.foldl advance p).row = p.row →
      (bytes.foldl advance p).byteColumn = p.byteColumn + bytes.length
  | [], _, _ => rfl
  | b :: bytes, p, h => by
      rw [List.foldl_cons] at h ⊢
      have hle := row_le_foldl bytes (advance p b)
      have hstep : advance p b = ⟨p.row, p.byteColumn + 1⟩ := by
        by_cases hb : b = newline
        · rw [h, advance, if_pos hb] at hle
          exact absurd hle (Nat.not_succ_le_self _)
        · rw [advance, if_neg hb]
      rw [hstep] at h ⊢
      rw [foldl_same_row bytes h, List.length_cons]
      simp only
      omega

theorem byteColumn_foldl_le : ∀ (bytes : List UInt8) (p : Point),
    (bytes.foldl advance p).byteColumn ≤ p.byteColumn + bytes.length
  | [], _ => Nat.le_refl _
  | b :: bytes, p => by
      have hle := byteColumn_foldl_le bytes (advance p b)
      have hstep : (advance p b).byteColumn ≤ p.byteColumn + 1 := by
        unfold advance
        split
        · exact Nat.zero_le _
        · exact Nat.le_refl _
      rw [List.foldl_cons, List.length_cons]
      omega

theorem byteColumn_pointAt_le (source : Source) (offset : Nat) :
    (source.pointAt offset).byteColumn ≤ offset := by
  have hle := byteColumn_foldl_le (source.take offset) ⟨0, 0⟩
  have hlength := List.length_take_le offset source
  rw [pointAt]
  simp only at hle
  omega

theorem pointAt_add (source : Source) (offset more : Nat) :
    source.pointAt (offset + more) =
      ((source.drop offset).take more).foldl advance (source.pointAt offset) := by
  rw [pointAt, pointAt, List.take_add, List.foldl_append]

/-! ### Texts of spans -/

/-- A span with a text lies in the source, and its octets are read as the text. -/
theorem exists_bytes_of_textOf {source : Source} {span : Span} (h : source.textOf span ≠ []) :
    span.start ≤ source.length ∧ ∃ bytes rest, source.drop span.start = bytes ++ rest ∧
      span.stop = span.start + bytes.length ∧
        Utf8.decode? bytes = some (source.textOf span) := by
  unfold textOf at h ⊢
  cases hbytes : source.bytesOf? span with
  | none => rw [hbytes] at h; exact absurd rfl h
  | some bytes =>
    rw [hbytes] at h
    cases htext : Utf8.decode? bytes with
    | none =>
      rw [Option.bind_some, htext] at h
      exact absurd rfl h
    | some text =>
      unfold bytesOf? at hbytes
      split at hbytes
      · rename_i hspan
        refine ⟨Nat.le_trans hspan.1 hspan.2, bytes,
          (source.drop span.start).drop span.length, ?_, ?_, ?_⟩
        · rw [← Option.some.inj hbytes]
          exact (List.take_append_drop span.length _).symm
        · rw [← Option.some.inj hbytes, List.length_take, List.length_drop, Span.length]
          omega
        · rw [Option.bind_some, htext, Option.getD_some]
      · cases hbytes

/-- A text is what its span's octets write. -/
theorem drop_of_textOf {source : Source} {span : Span} (h : source.textOf span ≠ []) :
    ∃ rest, source.drop span.start = Utf8.encode (source.textOf span) ++ rest := by
  obtain ⟨_, bytes, rest, hdrop, _, htext⟩ := exists_bytes_of_textOf h
  exact ⟨rest, by rw [hdrop, Utf8.encode_of_decode? htext]⟩

/-- No text starts inside a character. -/
theorem start_of_textOf {source : Source} {span : Span} (h : source.textOf span ≠ []) :
    span.start ≤ source.length ∧
      ∃ b, source[span.start]? = some b ∧ Utf8.isContinuation b = false := by
  obtain ⟨hstart, bytes, rest, hdrop, _, htext⟩ := exists_bytes_of_textOf h
  cases bytes with
  | nil => exact absurd (Option.some.inj htext).symm h
  | cons b bytes =>
    refine ⟨hstart, b, ?_, Utf8.isContinuation_of_decode? htext⟩
    rw [← List.head?_drop, hdrop]
    rfl

/-! ### Positions -/

/-- **A later offset has a later line, or a later column on the same line.** -/
theorem positionOf_lt {source : Source} {first second : Nat} (hlt : first < second)
    (hsecond : second ≤ source.length) {b : UInt8} (hb : source[first]? = some b)
    (hstart : Utf8.isContinuation b = false) :
    let p := source.positionOf first (source.pointAt first)
    let q := source.positionOf second (source.pointAt second)
    p.line < q.line ∨ p.line = q.line ∧ p.column < q.column := by
  obtain ⟨more, hmore⟩ : ∃ more, second = first + (more + 1) := ⟨second - first - 1, by omega⟩
  have hdrop : source.drop first = b :: source.drop (first + 1) := by
    obtain ⟨hlength, hget⟩ := List.getElem?_eq_some_iff.mp hb
    rw [← hget]
    exact List.drop_eq_getElem_cons hlength
  have hpoint := pointAt_add source first (more + 1)
  rw [← hmore] at hpoint
  have hrow : (source.pointAt first).row ≤ (source.pointAt second).row :=
    hpoint ▸ row_le_foldl _ _
  rcases Nat.lt_or_eq_of_le hrow with hrow | hrow
  · exact Or.inl hrow
  · refine Or.inr ⟨hrow, ?_⟩
    -- Both lie on one line, and the first cuts the line where a character starts.
    have hcolumn : (source.pointAt second).byteColumn =
        (source.pointAt first).byteColumn + (more + 1) := by
      rw [hpoint] at hrow ⊢
      rw [foldl_same_row _ hrow.symm, List.length_take, List.length_drop]
      omega
    have hle := byteColumn_pointAt_le source first
    show Utf16.column source first (source.pointAt first).byteColumn <
      Utf16.column source second (source.pointAt second).byteColumn
    rw [hcolumn]
    generalize (source.pointAt first).byteColumn = column at hle
    have hlineStart : second - (column + (more + 1)) = first - column := by omega
    have hline : (source.drop (first - column)).take (column + (more + 1)) =
        (source.drop (first - column)).take column ++ b :: (source.drop (first + 1)).take more := by
      have hfirst : first - column + column = first := Nat.sub_add_cancel hle
      rw [List.take_add, List.drop_drop, hfirst, hdrop, List.take_succ_cons]
    rw [Utf16.column, Utf16.column, if_pos ⟨hle, by omega⟩, if_pos ⟨by omega, hsecond⟩,
      hlineStart, hline]
    exact Utf16.units_decodeLossy_lt _ hstart _

end Source

end ScopeLint
