import ScopeLint.Proofs.Syntax.Respelling
import ScopeLint.Proofs.Text.Alike

/-! # The respelled text

The words that are respelled stand in the text, in order and apart
(`Respelling.apart_starts`).  So the text is cut into gaps and words, and the
respelled text is the same gaps around the spellings (`Respelling.Spliced`).  From
that follows what it has in common with the text: only the first octet of each
word changes, and every place stays where it is
(`Respelling.respelling_moves_nothing`).
-/

namespace ScopeLint.Syntax.Respelling

open Utf8 (encode)

/-! ### Offsets of words -/

theorem pairwise_insertNew (n : Nat) : ∀ {starts : List Nat}, starts.Pairwise (· < ·) →
    (insertNew n starts).Pairwise (· < ·)
  | [], _ => List.pairwise_singleton ..
  | m :: rest, h => by
      obtain ⟨hm, hrest⟩ := List.pairwise_cons.mp h
      unfold insertNew
      split
      · rename_i hlt
        refine List.pairwise_cons.mpr ⟨fun k hk => ?_, h⟩
        rcases List.mem_cons.mp hk with rfl | hk
        · exact hlt
        · exact Nat.lt_trans hlt (hm k hk)
      · split
        · exact h
        · refine List.pairwise_cons.mpr ⟨fun k hk => ?_, pairwise_insertNew n hrest⟩
          rcases mem_insertNew_iff.mp hk with rfl | hk
          · omega
          · exact hm k hk

theorem pairwise_starts (root : Node) (source : Source) :
    (starts root source).Pairwise (· < ·) := by
  unfold starts
  induction collect source root with
  | nil => exact .nil
  | cons n _ ih => exact pairwise_insertNew n ih

variable {source : Source}

theorem WordAt.getElem? {offset : Nat} (h : WordAt source offset) {i : Nat}
    (hi : i < word.length) : source[offset + i]? = (encode word)[i]? := by
  obtain ⟨rest, hdrop⟩ := h
  rw [← List.getElem?_drop, hdrop]
  exact List.getElem?_append_left hi

/-- No letter of the word is its first letter again, so words do not overlap. -/
theorem WordAt.apart {first second : Nat} (h : WordAt source first) (h' : WordAt source second)
    (hlt : first < second) : first + word.length ≤ second := by
  have hletters : ∀ i < word.length, 0 < i → (encode word)[i]? ≠ (encode word)[0]? := by decide
  by_contra hover
  obtain ⟨i, rfl⟩ : ∃ i, second = first + i := ⟨second - first, by omega⟩
  have hi : i < word.length := by omega
  exact hletters i hi (by omega) ((h.getElem? hi).symm.trans (h'.getElem? (i := 0) (by decide)))

theorem apart_starts (root : Node) (source : Source) :
    (starts root source).Pairwise (fun a b => a + word.length ≤ b) :=
  (pairwise_starts root source).imp_of_mem fun ha hb hlt =>
    (wordAt_of_starts ha).apart (wordAt_of_starts hb) hlt

/-- A word cuts a written text between characters. -/
theorem WordAt.exists_split {text : List Char} {offset : Nat} (h : WordAt (encode text) offset) :
    ∃ before after, text = before ++ (word ++ after) ∧ offset = (encode before).length := by
  obtain ⟨rest, hdrop⟩ := h
  have hle : offset ≤ (encode text).length := by
    by_contra hout
    rw [List.drop_of_length_le (by omega)] at hdrop
    exact absurd hdrop.symm (List.append_ne_nil_of_left_ne_nil (by decide) _)
  obtain ⟨b, tail, hword, hb⟩ : ∃ b tail, encode word = b :: tail ∧
      Utf8.isContinuation b = false := ⟨_, _, rfl, rfl⟩
  have hcut : encode text = (encode text).take offset ++ b :: (tail ++ rest) := by
    rw [← List.cons_append, ← hword, ← hdrop, List.take_append_drop]
  obtain ⟨before, second, rfl, hbefore, hsecond⟩ := Utf8.exists_split_of_encode hcut hb
  rw [← List.cons_append, ← hword] at hsecond
  obtain ⟨after, rfl⟩ := Utf8.exists_of_encode_eq_append hsecond.symm
  exact ⟨before, after, rfl, by rw [← hbefore, List.length_take, Nat.min_eq_left hle]⟩

/-! ### Gaps and words -/

/-- **Two sources are the same gaps**, around the word in the first and around its
spelling in the second.  The sources stand behind `last` octets, and the list holds
the offsets of the words. -/
inductive Spliced : Nat → List Nat → Source → Source → Prop where
  /-- The last gap. -/
  | nil (last : Nat) (gap : Source) : Spliced last [] gap gap
  /-- A gap, a word, and what follows. -/
  | cons {last : Nat} (gap : Source) {found : List Nat} {source source' : Source}
      (rest : Spliced (last + gap.length + word.length) found source source') :
      Spliced last ((last + gap.length) :: found) (gap ++ (encode word ++ source))
        (gap ++ (encode spelling ++ source'))

theorem length_word : (encode word).length = word.length := rfl

theorem length_spelling : (encode spelling).length = word.length := rfl

theorem alike_spelling : Source.Alike (encode word) (encode spelling) := by
  unfold Source.Alike Utf8.Alike
  decide

namespace Spliced

variable {last : Nat} {found : List Nat} {source' : Source}

theorem alike (h : Spliced last found source source') : Source.Alike source source' := by
  induction h with
  | nil _ gap => exact Source.alike_refl gap
  | cons gap _ ih => exact (Source.alike_refl gap).append (alike_spelling.append ih)

theorem last_le (h : Spliced last found source source') : ∀ start ∈ found, last ≤ start := by
  induction h with
  | nil => exact fun _ hmem => absurd hmem List.not_mem_nil
  | cons gap _ ih =>
    intro start hmem
    rcases List.mem_cons.mp hmem with rfl | hmem
    · exact Nat.le_add_right ..
    · have hle := ih start hmem
      omega

/-- The first octet of each word is respelled, and no other octet. -/
theorem getElem?_eq (h : Spliced last found source source') (i : Nat) :
    source'[i]? = if last + i ∈ found then (encode spelling)[0]? else source[i]? := by
  induction h generalizing i with
  | nil => rw [if_neg List.not_mem_nil]
  | @cons last gap found source source' rest ih =>
    have hlater : ∀ start ∈ found, last + gap.length + word.length ≤ start := rest.last_le
    by_cases hgap : i < gap.length
    · have hnot : last + i ∉ (last + gap.length) :: found := by
        intro hmem
        rcases List.mem_cons.mp hmem with he | hmem
        · omega
        · have hle := hlater _ hmem
          omega
      rw [if_neg hnot, List.getElem?_append_left hgap, List.getElem?_append_left hgap]
    · obtain ⟨j, rfl⟩ : ∃ j, i = gap.length + j := ⟨i - gap.length, by omega⟩
      rw [List.getElem?_append_right (Nat.le_add_right ..),
        List.getElem?_append_right (Nat.le_add_right ..), Nat.add_sub_cancel_left]
      by_cases hword : j < word.length
      · have hletters : ∀ j < word.length,
            (encode spelling)[j]? = if j = 0 then (encode spelling)[0]? else (encode word)[j]? := by
          decide
        have hmem : last + (gap.length + j) ∈ (last + gap.length) :: found ↔ j = 0 := by
          rw [List.mem_cons]
          constructor
          · rintro (he | hmem)
            · omega
            · have hle := hlater _ hmem
              omega
          · rintro rfl
            exact Or.inl rfl
        rw [List.getElem?_append_left (length_spelling ▸ hword),
          List.getElem?_append_left (length_word ▸ hword), hletters j hword]
        exact if_congr hmem.symm rfl rfl
      · obtain ⟨k, rfl⟩ : ∃ k, j = word.length + k := ⟨j - word.length, by omega⟩
        have hmem : last + (gap.length + (word.length + k)) ∈ (last + gap.length) :: found ↔
            last + gap.length + word.length + k ∈ found := by
          have hne : last + gap.length + word.length + k ≠ last + gap.length := by
            have hpos : 0 < word.length := by decide
            omega
          rw [← Nat.add_assoc, ← Nat.add_assoc, List.mem_cons, or_iff_right hne]
        rw [List.getElem?_append_right (length_spelling ▸ Nat.le_add_right ..),
          List.getElem?_append_right (length_word ▸ Nat.le_add_right ..), length_spelling,
          length_word, Nat.add_sub_cancel_left, ih k]
        exact if_congr hmem.symm rfl rfl

end Spliced

/-! ### Respelling -/

/-- A source up to a word in it is a gap before the word. -/
theorem WordAt.exists_gap {last start : Nat} (h : WordAt source start) (hle : last ≤ start)
    (hin : start ≤ source.length) :
    ∃ gap, start = last + gap.length ∧ (source.drop last).take (start - last) = gap ∧
      source.drop last = gap ++ (encode word ++ source.drop (start + word.length)) := by
  obtain ⟨rest, hword⟩ := h
  have hrest : source.drop (start + word.length) = rest := by
    rw [← List.drop_drop, hword]
    rfl
  have hdrop : (source.drop last).drop (start - last) = source.drop start := by
    rw [List.drop_drop, Nat.add_sub_cancel' hle]
  refine ⟨_, ?_, rfl, ?_⟩
  · rw [List.length_take, List.length_drop]
    omega
  · rw [hrest, ← hword, ← hdrop, List.take_append_drop]

/-- Words of a written text that stand apart can be respelled. -/
theorem exists_spliced {text : List Char} : ∀ (found : List Nat) {last : Nat},
    Source.isBoundary (encode text) last = true → last ≤ (encode text).length →
    (∀ start ∈ found, last ≤ start) → (∀ start ∈ found, WordAt (encode text) start) →
    found.Pairwise (fun a b => a + word.length ≤ b) →
      ∃ bytes, respellFrom? (encode text) last found = some bytes ∧
        Spliced last found ((encode text).drop last) bytes
  | [], last, hlast, hle, _, _, _ => by
      refine ⟨(encode text).drop last, ?_, .nil last _⟩
      rw [respellFrom?, Source.cut?_of_isBoundary hlast (Source.isBoundary_length _) hle
        (Nat.le_refl _), List.take_of_length_le (Nat.le_of_eq List.length_drop)]
  | start :: found, last, hlast, hle, hbehind, hwords, hapart => by
      obtain ⟨hstart, hapart⟩ := List.pairwise_cons.mp hapart
      have hbefore : last ≤ start := hbehind start (List.mem_cons_self ..)
      have hword : WordAt (encode text) start := hwords start (List.mem_cons_self ..)
      -- The text is cut in front of the word and behind it.
      obtain ⟨before, after, rfl, hoffset⟩ := hword.exists_split
      have hfront := Source.isBoundary_encode before (word ++ after)
      have hback := Source.isBoundary_encode (before ++ word) after
      have hlength : (encode (before ++ (word ++ after))).length =
          start + word.length + (encode after).length := by
        rw [Utf8.encode_append, Utf8.encode_append, List.length_append, List.length_append,
          length_word, hoffset, Nat.add_assoc]
      rw [← hoffset] at hfront
      rw [List.append_assoc, Utf8.encode_append before word, List.length_append, length_word,
        ← hoffset] at hback
      obtain ⟨bytes, hbytes, hspliced⟩ := exists_spliced found hback (by omega) hstart
        (fun s hs => hwords s (List.mem_cons_of_mem _ hs)) hapart
      obtain ⟨gap, hgap, hcut, hsplit⟩ := hword.exists_gap hbefore (by omega)
      refine ⟨gap ++ (encode spelling ++ bytes), ?_, ?_⟩
      · rw [respellFrom?, Source.cut?_of_isBoundary hlast hfront hbefore (by omega), hbytes, hcut]
        exact congrArg some (List.append_assoc ..)
      · rw [hsplit, hgap]
        exact .cons gap (hgap ▸ hspliced)

/-- **A text can be respelled**, and the result is a text. -/
theorem exists_respelled (text : String) (root : Node) :
    ∃ respelled : String,
      respell? (Source.ofText text) (starts root (Source.ofText text)) =
          some (Source.ofText respelled) ∧
        Spliced 0 (starts root (Source.ofText text)) (Source.ofText text)
          (Source.ofText respelled) := by
  have hbegin : Source.isBoundary (encode text.toList) 0 = true := Source.isBoundary_zero _
  obtain ⟨bytes, hbytes, hspliced⟩ := exists_spliced (starts root (Source.ofText text)) hbegin
    (Nat.zero_le _) (fun _ _ => Nat.zero_le _) (fun _ => wordAt_of_starts) (apart_starts root _)
  obtain ⟨respelled, rfl⟩ := Utf8.exists_encode_of_alike hspliced.alike
  have hsource : Source.ofText (String.ofList respelled) = encode respelled := by
    rw [Source.ofText, String.toList_ofList]
  exact ⟨String.ofList respelled, by rw [hsource]; exact hbytes, by rw [hsource]; exact hspliced⟩

/-- **Respelling moves nothing.**  Whatever tree is given for a text, the words found
in it can be cut out and respelled, they stand nine octets apart, and the result is a
text of the same length that differs from the first in the first octet of each word.
Its line breaks, the boundaries of its characters, and the point and UTF-16 columns of
each offset are those of the first. -/
theorem respelling_moves_nothing (text : String) (root : Node) :
    let source := Source.ofText text
    let found := starts root source
    ∃ respelled : String,
      respell? source found = some (Source.ofText respelled) ∧
      (Source.ofText respelled).length = source.length ∧
      (∀ i ∈ found, source[i]? = some 'u'.toUInt8) ∧
      (∀ i : Nat, (Source.ofText respelled)[i]? =
        if i ∈ found then some '_'.toUInt8 else source[i]?) ∧
      found.Pairwise (fun a b => a + 9 ≤ b) ∧
      (∀ i : Nat, (Source.ofText respelled)[i]? = some Source.newline ↔
        source[i]? = some Source.newline) ∧
      ∀ offset, (Source.ofText respelled).isBoundary offset = source.isBoundary offset ∧
        (Source.ofText respelled).pointAt offset = source.pointAt offset ∧
        ∀ byteColumn, Utf16.column (Source.ofText respelled) offset byteColumn =
          Utf16.column source offset byteColumn := by
  intro source found
  obtain ⟨respelled, hrespelled, hspliced⟩ := exists_respelled text root
  have halike : Source.Alike source (Source.ofText respelled) := hspliced.alike
  refine ⟨respelled, hrespelled, (List.Forall₂.length_eq halike).symm, ?_, ?_, ?_, ?_, ?_⟩
  · intro i hi
    exact (wordAt_of_starts hi).getElem? (i := 0) (by decide)
  · intro i
    rw [hspliced.getElem?_eq i, Nat.zero_add]
    rfl
  · exact apart_starts root source
  · intro i
    exact (halike.newline_iff i).symm
  · intro offset
    exact ⟨(halike.isBoundary offset).symm, pointAt_respell? hrespelled offset,
      fun byteColumn => (halike.column offset byteColumn).symm⟩

end ScopeLint.Syntax.Respelling
