import ScopeLint.Proofs.Text.Alike

/-! # Cuts of a written text

A written text can be cut where a character starts, and nowhere else
(`Source.isBoundary_encode_iff`).  So what stands between two boundaries of it is
again a text (`Source.exists_split_of_cut?`), and a span has the text that is cut out
at its ends (`Source.textOf_eq_iff`).
-/

namespace ScopeLint

namespace Utf8

theorem encode_injective {text text' : List Char} (h : encode text = encode text') :
    text = text' := by
  have hread := decode?_encode text
  rw [h, decode?_encode] at hread
  exact (Option.some.inj hread).symm

theorem encode_eq_nil {text : List Char} (h : encode text = []) : text = [] :=
  encode_injective (h : encode text = encode [])

theorem length_encode_append (text text' : List Char) :
    (encode (text ++ text')).length = (encode text).length + (encode text').length := by
  rw [encode_append, List.length_append]

/-- Of two cuts of a text, the one behind fewer octets comes first. -/
theorem exists_append_of_le {before after before' after' : List Char}
    (h : before ++ after = before' ++ after')
    (hle : (encode before).length ≤ (encode before').length) :
    ∃ inner, before' = before ++ inner ∧ after = inner ++ after' := by
  rcases List.append_eq_append_iff.mp h with ⟨inner, hbefore, hafter⟩ | ⟨inner, hbefore, hafter⟩
  · exact ⟨inner, hbefore, hafter⟩
  · -- The second cut comes first, so no octet stands between the two.
    rw [hbefore, length_encode_append] at hle
    obtain rfl : inner = [] := encode_eq_nil (List.length_eq_zero_iff.mp (by omega))
    exact ⟨[], by rw [hbefore, List.append_nil, List.append_nil], hafter.symm⟩

end Utf8

namespace Source

open Utf8 (encode)

variable {text : List Char}

/-- **The boundaries of a written text** are the offsets behind its characters. -/
theorem isBoundary_encode_iff {offset : Nat} : isBoundary (encode text) offset = true ↔
    ∃ before after, text = before ++ after ∧ offset = (encode before).length := by
  constructor
  · intro h
    unfold isBoundary at h
    cases hget : (encode text)[offset]? with
    | none =>
      rw [hget] at h
      exact ⟨text, [], (List.append_nil text).symm, beq_iff_eq.mp h⟩
    | some b =>
      rw [hget, Bool.or_eq_true, beq_iff_eq, Bool.not_eq_true'] at h
      rcases h with rfl | hb
      · exact ⟨[], text, rfl, rfl⟩
      · obtain ⟨hlength, hb'⟩ := List.getElem?_eq_some_iff.mp hget
        have hcut : encode text =
            (encode text).take offset ++ b :: (encode text).drop (offset + 1) := by
          rw [← hb', ← List.drop_eq_getElem_cons hlength, List.take_append_drop]
        obtain ⟨before, after, htext, hbefore, _⟩ := Utf8.exists_split_of_encode hcut hb
        refine ⟨before, after, htext, ?_⟩
        rw [← hbefore, List.length_take, Nat.min_eq_left (Nat.le_of_lt hlength)]
  · rintro ⟨before, after, rfl, rfl⟩
    exact isBoundary_encode before after

theorem cut?_encode (before inner after : List Char) :
    cut? (encode (before ++ (inner ++ after))) (encode before).length
      (encode (before ++ inner)).length = some (encode inner) := by
  have hstop := isBoundary_encode (before ++ inner) after
  rw [List.append_assoc] at hstop
  have hlength := Utf8.length_encode_append before inner
  have hin : (encode (before ++ inner)).length ≤ (encode (before ++ (inner ++ after))).length := by
    rw [← List.append_assoc, Utf8.length_encode_append (before ++ inner)]
    exact Nat.le_add_right ..
  rw [cut?_of_isBoundary (isBoundary_encode before (inner ++ after)) hstop (by omega) hin, hlength,
    Nat.add_sub_cancel_left, Utf8.encode_append, List.drop_left, Utf8.encode_append, List.take_left]

/-- **What is cut out of a written text is a part of it.** -/
theorem exists_split_of_cut? {start stop : Nat} {bytes : List UInt8}
    (h : cut? (encode text) start stop = some bytes) :
    ∃ before inner after, text = before ++ (inner ++ after) ∧ start = (encode before).length ∧
      stop = (encode (before ++ inner)).length ∧ bytes = encode inner := by
  have hbounds : isBoundary (encode text) start = true ∧ isBoundary (encode text) stop = true ∧
      start ≤ stop := by
    unfold cut? bytesOf? at h
    split at h
    · rename_i hboundary
      rw [Bool.and_eq_true] at hboundary
      split at h
      · rename_i hspan
        exact ⟨hboundary.1, hboundary.2, hspan.1⟩
      · cases h
    · cases h
  obtain ⟨hstart, hstop, hle⟩ := hbounds
  obtain ⟨before, rest, htext, rfl⟩ := isBoundary_encode_iff.mp hstart
  obtain ⟨upTo, after, htext', rfl⟩ := isBoundary_encode_iff.mp hstop
  obtain ⟨inner, rfl, rfl⟩ := Utf8.exists_append_of_le (htext.symm.trans htext') hle
  subst htext
  rw [cut?_encode] at h
  exact ⟨before, inner, after, rfl, rfl, rfl, (Option.some.inj h).symm⟩

theorem textOf_encode (before inner after : List Char) :
    textOf (encode (before ++ (inner ++ after)))
      ⟨(encode before).length, (encode (before ++ inner)).length⟩ = inner := by
  have hcut := cut?_encode before inner after
  unfold cut? at hcut
  split at hcut
  · rw [textOf, hcut, Option.bind_some, Utf8.decode?_encode, Option.getD_some]
  · cases hcut

/-- **A span has the text that is cut out at its ends.** -/
theorem textOf_eq_iff {word : List Char} (hword : word ≠ []) {span : Span} :
    textOf (encode text) span = word ↔
      cut? (encode text) span.start span.stop = some (encode word) := by
  obtain ⟨start, stop⟩ := span
  constructor
  · intro h
    obtain ⟨before, after, rfl, hstart, hstop⟩ := exists_split_of_textOf h hword
    simp only at hstart hstop
    rw [hstart, hstop, List.append_assoc]
    exact cut?_encode before word after
  · intro h
    obtain ⟨before, inner, after, rfl, hstart, hstop, hinner⟩ := exists_split_of_cut? h
    simp only at hstart hstop
    rw [hstart, hstop, textOf_encode, Utf8.encode_injective hinner]

end Source

end ScopeLint
