import Mathlib.Data.List.Forall2
import ScopeLint.Proofs.Text.Places
import ScopeLint.Syntax.Program

/-! # Respelling moves nothing

A word is respelled only where it stands in the text, by a name of the same
length without a line break.  So the respelled text has its line breaks where the
text has them, and a point of one is a point of the other
(`Respelling.pointAt_respell?`): the tree of a program has the parser's points of
the program's own text, whichever of the two it was read from.
-/

namespace ScopeLint.Syntax

namespace Respelling

/-- The word stands at an offset of a source. -/
def WordAt (source : Source) (offset : Nat) : Prop :=
  ∃ rest, source.drop offset = Utf8.encode word ++ rest

/-! ### Where words are found -/

theorem length_encodeChar (c : Char) : (Utf8.encodeChar c).length = Utf8.width c := by
  simp only [Utf8.encodeChar, Utf8.width]
  split
  · rfl
  · split
    · rfl
    · split <;> rfl

theorem standsAt_iff {before : Option Char} {text : List Char} :
    standsAt before text = true ↔ ∃ rest, text = word ++ rest ∧
      before.any isNameChar = false ∧ rest.head?.any isNameChar = false := by
  simp only [standsAt, Bool.and_eq_true, Bool.not_eq_true']
  constructor
  · rintro ⟨⟨hword, hbefore⟩, hafter⟩
    obtain ⟨rest, rfl⟩ := List.isPrefixOf_iff_prefix.mp hword
    rw [List.drop_left] at hafter
    exact ⟨rest, rfl, hbefore, hafter⟩
  · rintro ⟨rest, rfl, hbefore, hafter⟩
    rw [List.drop_left]
    exact ⟨⟨List.isPrefixOf_iff_prefix.mpr (List.prefix_append ..), hbefore⟩, hafter⟩

/-- **The words found in a text** are those that stand alone in it, where the character
in front of a word at the head of the text is `before`. -/
theorem mem_wordStarts_iff : ∀ (text : List Char) {offset start : Nat} {before : Option Char},
    start ∈ wordStarts offset before text ↔
      ∃ head rest, text = head ++ (word ++ rest) ∧ start = offset + (Utf8.encode head).length ∧
        (head.getLast?.or before).any isNameChar = false ∧ rest.head?.any isNameChar = false
  | [], _, _, _ => by
      constructor
      · exact fun h => absurd h List.not_mem_nil
      · rintro ⟨head, rest, htext, _⟩
        have hnil := (List.append_eq_nil_iff.mp (List.append_eq_nil_iff.mp htext.symm).2).1
        exact absurd hnil (by decide)
  | c :: text, offset, start, before => by
      have ih : start ∈ wordStarts (offset + Utf8.width c) (some c) text ↔ _ :=
        mem_wordStarts_iff text
      have hmem : start ∈ wordStarts offset before (c :: text) ↔
          (standsAt before (c :: text) = true ∧ start = offset) ∨
            start ∈ wordStarts (offset + Utf8.width c) (some c) text := by
        rw [wordStarts]
        split
        · rename_i hstands
          rw [List.mem_cons, and_iff_right hstands]
        · rename_i hstands
          rw [or_iff_right fun h => hstands h.1]
      have hlength : ∀ head : List Char,
          (Utf8.encode (c :: head)).length = Utf8.width c + (Utf8.encode head).length := by
        intro head
        rw [Utf8.encode, List.flatMap_cons, List.length_append, length_encodeChar]
        rfl
      have hbefore : ∀ head : List Char,
          (c :: head).getLast?.or before = head.getLast?.or (some c) := by
        intro head
        rw [List.getLast?_cons]
        cases head.getLast? <;> rfl
      rw [hmem, ih, standsAt_iff]
      constructor
      · rintro (⟨⟨rest, htext, hfront, hback⟩, rfl⟩ | ⟨head, rest, rfl, rfl, hfront, hback⟩)
        · exact ⟨[], rest, htext, rfl, hfront, hback⟩
        · refine ⟨c :: head, rest, rfl, ?_, ?_, hback⟩
          · rw [hlength, Nat.add_assoc]
          · rw [hbefore]
            exact hfront
      · rintro ⟨head, rest, htext, rfl, hfront, hback⟩
        cases head with
        | nil => exact Or.inl ⟨⟨rest, htext, hfront, hback⟩, rfl⟩
        | cons d head =>
          obtain ⟨rfl, rfl⟩ := List.cons.inj htext
          refine Or.inr ⟨head, rest, rfl, ?_, ?_, hback⟩
          · rw [hlength, Nat.add_assoc]
          · rw [← hbefore]
            exact hfront

theorem wordAt_of_startsAt {source : Source} {label : Label} {isLeaf : Bool} {start : Nat}
    (h : start ∈ startsAt source label isLeaf) : WordAt source start := by
  unfold startsAt at h
  split at h
  · obtain ⟨head, rest, htext, rfl, _, _⟩ := (mem_wordStarts_iff _).mp h
    have hne : source.textOf label.span ≠ [] := by
      rw [htext]
      simp [word]
    obtain ⟨more, hdrop⟩ := Source.drop_of_textOf hne
    refine ⟨Utf8.encode rest ++ more, ?_⟩
    rw [← List.drop_drop, hdrop, htext, Utf8.encode_append, Utf8.encode_append, List.append_assoc,
      List.drop_left, List.append_assoc]
  · split at h
    · rename_i hleaf
      simp only [Bool.and_eq_true, beq_iff_eq] at hleaf
      have hne : source.textOf label.span ≠ [] := by
        rw [hleaf.2]
        simp [word]
      obtain ⟨more, hdrop⟩ := Source.drop_of_textOf hne
      rw [List.mem_singleton.mp h]
      exact ⟨more, by rw [hdrop, hleaf.2]⟩
    · exact absurd h List.not_mem_nil

theorem mem_insertNew_iff {n start : Nat} : ∀ {starts : List Nat},
    start ∈ insertNew n starts ↔ start = n ∨ start ∈ starts
  | [] => by rw [insertNew, List.mem_singleton, or_iff_left List.not_mem_nil]
  | m :: rest => by
      unfold insertNew
      split
      · exact List.mem_cons
      · split
        · rename_i he
          rw [he, List.mem_cons, ← or_assoc, or_self]
        · rw [List.mem_cons, mem_insertNew_iff, List.mem_cons, or_left_comm]

theorem mem_starts_iff {root : Node} {source : Source} {start : Nat} :
    start ∈ starts root source ↔ start ∈ collect source root := by
  unfold starts
  induction collect source root with
  | nil => rfl
  | cons n found ih => rw [List.foldr_cons, mem_insertNew_iff, ih, List.mem_cons]

mutual

theorem wordAt_of_collect {source : Source} {start : Nat} : ∀ node : Node,
    start ∈ collect source node → WordAt source start
  | .node label children, h => by
      rw [collect] at h
      rcases List.mem_append.mp h with h | h
      · exact wordAt_of_startsAt h
      · exact wordAt_of_collectAll children h

theorem wordAt_of_collectAll {source : Source} {start : Nat} : ∀ nodes : List Node,
    start ∈ collectAll source nodes → WordAt source start
  | [], h => absurd h List.not_mem_nil
  | child :: rest, h => by
      rw [collectAll] at h
      rcases List.mem_append.mp h with h | h
      · exact wordAt_of_collect child h
      · exact wordAt_of_collectAll rest h

end

/-- Only words are respelled. -/
theorem wordAt_of_starts {root : Node} {source : Source} {start : Nat}
    (h : start ∈ starts root source) : WordAt source start :=
  wordAt_of_collect root (mem_starts_iff.mp h)

/-! ### Line breaks stay -/

/-- Two sources have their line breaks at the same offsets. -/
def SameLines (source source' : Source) : Prop :=
  List.Forall₂ (fun a b => a = Source.newline ↔ b = Source.newline) source source'

theorem sameLines_refl (source : Source) : SameLines source source :=
  List.forall₂_same.mpr fun _ _ => Iff.rfl

/-- Points depend on line breaks only. -/
theorem SameLines.pointAt {source source' : Source} (h : SameLines source source')
    (offset : Nat) : source.pointAt offset = source'.pointAt offset := by
  unfold Source.pointAt
  generalize (⟨0, 0⟩ : Point) = p
  induction h generalizing offset p with
  | nil => rfl
  | @cons a b source source' hab _ ih =>
    cases offset with
    | zero => rfl
    | succ offset =>
      rw [List.take_succ_cons, List.take_succ_cons, List.foldl_cons, List.foldl_cons, ih]
      congr 1
      unfold Source.advance
      by_cases ha : a = Source.newline
      · rw [if_pos ha, if_pos (hab.mp ha)]
      · rw [if_neg ha, if_neg (mt hab.mpr ha)]

theorem sameLines_spelling : SameLines (Utf8.encode spelling) (Utf8.encode word) := by
  unfold SameLines
  decide

theorem cut?_eq {source : Source} {start stop : Nat} {bytes : List UInt8}
    (h : source.cut? start stop = some bytes) :
    start ≤ stop ∧ stop ≤ source.length ∧ bytes = (source.drop start).take (stop - start) := by
  unfold Source.cut? Source.bytesOf? at h
  split at h
  · split at h
    · rename_i hspan
      exact ⟨hspan.1, hspan.2, (Option.some.inj h).symm⟩
    · cases h
  · cases h

theorem sameLines_respellFrom? {source : Source} : ∀ (found : List Nat) {last : Nat}
    {bytes : List UInt8}, (∀ start ∈ found, WordAt source start) →
      respellFrom? source last found = some bytes → SameLines bytes (source.drop last)
  | [], last, bytes, _, h => by
      obtain ⟨_, _, rfl⟩ := cut?_eq h
      rw [List.take_of_length_le (Nat.le_of_eq List.length_drop)]
      exact sameLines_refl _
  | start :: found, last, bytes, hwords, h => by
      unfold respellFrom? at h
      obtain ⟨before, hbefore, h⟩ := Option.bind_eq_some_iff.mp h
      obtain ⟨after, hafter, h⟩ := Option.bind_eq_some_iff.mp h
      obtain ⟨hle, _, rfl⟩ := cut?_eq hbefore
      obtain ⟨rest, hword⟩ := hwords start (List.mem_cons_self ..)
      have ih := sameLines_respellFrom? found
        (fun s hs => hwords s (List.mem_cons_of_mem _ hs)) hafter
      have hrest : source.drop (start + word.length) = rest := by
        rw [← List.drop_drop, hword]
        rfl
      -- The text before the word is kept, the word is respelled, and the rest is by induction.
      have hsplit : source.drop last =
          (source.drop last).take (start - last) ++ Utf8.encode word ++ rest := by
        have hdrop : (source.drop last).drop (start - last) = source.drop start := by
          rw [List.drop_drop]
          congr 1
          omega
        rw [List.append_assoc, ← hword, ← hdrop, List.take_append_drop]
      rw [hrest] at ih
      rw [hsplit, ← Option.some.inj h]
      exact (List.rel_append (List.rel_append (sameLines_refl _) sameLines_spelling) ih)

/-- **A point of the respelled text is a point of the text.** -/
theorem pointAt_respell? {root : Node} {source : Source} {bytes : List UInt8}
    (h : respell? source (starts root source) = some bytes) (offset : Nat) :
    Source.pointAt bytes offset = source.pointAt offset :=
  (sameLines_respellFrom? _ (fun _ hs => wordAt_of_starts hs) h).pointAt offset

end Respelling

/-! ### Trees of programs -/

/-- **A parser's points are those of the offsets.** -/
def Grammar.Pointed (grammar : Grammar) : Prop :=
  ∀ text, ∀ l ∈ (grammar text).labels, l.start = (Source.ofText text).pointAt l.span.start

/-- A second reading is the parser's tree of the respelled text. -/
theorem Program.exists_of_reread? {grammar : Grammar} {source : Source} {first second : Node}
    (h : Program.reread? grammar source first = some second) :
    ∃ bytes text, Respelling.respell? source (Respelling.starts first source) = some bytes ∧
      Utf8.decode? bytes = some text ∧ second = grammar (String.ofList text) := by
  unfold reread? at h
  simp only [Option.bind_eq_bind] at h
  split at h
  · cases h
  · obtain ⟨bytes, hbytes, h⟩ := Option.bind_eq_some_iff.mp h
    obtain ⟨text, htext, h⟩ := Option.bind_eq_some_iff.mp h
    split at h
    · cases h
    · exact ⟨bytes, text, hbytes, htext, (Option.some.inj h).symm⟩

/-- The tree of a program has the points of its own text. -/
theorem Program.treeOf_pointed {grammar : Grammar} (h : grammar.Pointed) (text : String) :
    ∀ l ∈ (Program.treeOf grammar text).labels,
      l.start = (Source.ofText text).pointAt l.span.start := by
  unfold treeOf
  intro l hl
  simp only at hl
  split at hl
  · cases hreread : Program.reread? grammar (Source.ofText text) (grammar text) with
    | none =>
      rw [hreread] at hl
      exact h text l hl
    | some second =>
      rw [hreread] at hl
      obtain ⟨bytes, respelled, hbytes, htext, rfl⟩ := Program.exists_of_reread? hreread
      have hsource : Source.ofText (String.ofList respelled) = bytes := by
        rw [Source.ofText, String.toList_ofList, Utf8.encode_of_decode? htext]
      rw [h _ l hl, hsource, Respelling.pointAt_respell? hbytes]
  · exact h text l hl

end ScopeLint.Syntax
