import ScopeLint.Proofs.Syntax.Labels
import ScopeLint.Proofs.Syntax.Respelled
import ScopeLint.Proofs.Text.Cuts

/-! # Which words are respelled

A node accounts for a word in one of two ways (`Respelling.Accounts`): it is a leaf
for a name and its range is the word, or it is an error and the word stands alone
somewhere in its range.  Both are said in terms of the octets at offsets of the text.
The words that are respelled are those that some node of the tree accounts for, each
once and in order (`Respelling.found_words_exact`), however errors nest or overlap.
-/

namespace ScopeLint.Syntax

namespace Respelling

open Utf8 (encode)

/-! ### What a node accounts for -/

/-- **The word stands alone** at an offset in a range of a source: no character beside it
in the range can be part of a name. -/
structure StandsAlone (source : Source) (span : Span) (offset : Nat) : Prop where
  start_le : span.start ≤ offset
  le_stop : offset + 9 ≤ span.stop
  isWord : source.cut? offset (offset + 9) = some (encode word)
  before : ∀ head c, source.cut? span.start offset = some (encode (head ++ [c])) →
    isNameChar c = false
  after : ∀ c rest, source.cut? (offset + 9) span.stop = some (encode (c :: rest)) →
    isNameChar c = false

/-- **A node accounts for the word at an offset.** -/
inductive Accounts (source : Source) : Node → Nat → Prop
  /-- A leaf for a name that is the word. -/
  | leaf {label : Label} (hkind : label.kind = .undefined ∨ label.kind = .identifier)
      (hword : source.cut? label.span.start label.span.stop = some (encode word)) :
      Accounts source (.node label []) label.span.start
  /-- An error whose range is a part of the text in which the word stands alone. -/
  | error {label : Label} {children : List Node} {offset : Nat} (hkind : label.kind = .error)
      (hpart : (source.cut? label.span.start label.span.stop).isSome = true)
      (halone : StandsAlone source label.span offset) :
      Accounts source (.node label children) offset

/-- In a range that holds a word, the word stands alone if the characters beside it say so. -/
theorem standsAlone_iff (before head rest after : List Char) :
    StandsAlone (encode (before ++ (head ++ (word ++ (rest ++ after)))))
        ⟨(encode before).length, (encode (before ++ (head ++ (word ++ rest)))).length⟩
        (encode (before ++ head)).length ↔
      head.getLast?.any isNameChar = false ∧ rest.head?.any isNameChar = false := by
  have hnine : (encode (before ++ head)).length + 9 = (encode (before ++ head ++ word)).length := by
    rw [Utf8.length_encode_append (before ++ head)]
    rfl
  -- The three cuts of the range: what is before the word, the word, and what is behind it.
  have hfront := Source.cut?_encode before head (word ++ (rest ++ after))
  have hword := Source.cut?_encode (before ++ head) word (rest ++ after)
  have hback := Source.cut?_encode (before ++ head ++ word) rest after
  rw [← hnine] at hword hback
  simp only [List.append_assoc] at hfront hword hback
  constructor
  · rintro ⟨_, _, _, hbefore, hafter⟩
    rw [hfront] at hbefore
    rw [hback] at hafter
    constructor
    · cases hlast : head.getLast? with
      | none => rfl
      | some c =>
        obtain ⟨init, rfl⟩ := List.getLast?_eq_some_iff.mp hlast
        exact hbefore init c rfl
    · cases rest with
      | nil => rfl
      | cons c rest => exact hafter c rest rfl
  · rintro ⟨hbefore, hafter⟩
    have hlength := Utf8.length_encode_append before head
    have hstop := Utf8.length_encode_append (before ++ head ++ word) rest
    simp only [List.append_assoc] at hstop hnine
    refine ⟨by simp only; omega, by simp only; omega, hword, ?_, ?_⟩
    · intro init c hcut
      rw [hfront] at hcut
      rw [Utf8.encode_injective (Option.some.inj hcut), List.getLast?_concat] at hbefore
      exact hbefore
    · intro c more hcut
      rw [hback] at hcut
      rw [Utf8.encode_injective (Option.some.inj hcut)] at hafter
      exact hafter

variable {text : List Char}

/-- A word in a range cuts the range where it starts and where it ends. -/
theorem StandsAlone.exists_split {span : Span} {offset : Nat}
    (h : StandsAlone (encode text) span offset)
    (hpart : (Source.cut? (encode text) span.start span.stop).isSome = true) :
    ∃ before head rest after, text = before ++ (head ++ (word ++ (rest ++ after))) ∧
      span = ⟨(encode before).length, (encode (before ++ (head ++ (word ++ rest)))).length⟩ ∧
      offset = (encode (before ++ head)).length := by
  obtain ⟨start, stop⟩ := span
  obtain ⟨bytes, hcut⟩ := Option.isSome_iff_exists.mp hpart
  obtain ⟨before, inner, after, htext, hstart, hstop, _⟩ := Source.exists_split_of_cut? hcut
  obtain ⟨upTo, found, behind, htext', hoffset, hend, hfound⟩ :=
    Source.exists_split_of_cut? h.isWord
  obtain rfl : word = found := Utf8.encode_injective hfound
  have hle := h.start_le
  have hle' := h.le_stop
  simp only at hstart hstop hle hle'
  -- The range begins in front of the word, and ends behind it.
  obtain ⟨head, rfl, hinner⟩ := Utf8.exists_append_of_le (htext.symm.trans htext') (by omega)
  have hends : (before ++ head ++ word) ++ behind = (before ++ inner) ++ after := by
    rw [List.append_assoc before inner, hinner]
    simp only [List.append_assoc]
  obtain ⟨rest, hrest, rfl⟩ := Utf8.exists_append_of_le hends (by omega)
  obtain rfl : inner = head ++ (word ++ rest) := by
    refine List.append_cancel_left (?_ : before ++ inner = before ++ (head ++ (word ++ rest)))
    rw [hrest]
    simp only [List.append_assoc]
  exact ⟨before, head, rest, after, by rw [htext]; simp only [List.append_assoc],
    by rw [hstart, hstop], hoffset⟩

/-- **The words found in the text of a range** are those that stand alone in it. -/
theorem mem_wordStarts_textOf {span : Span} {offset : Nat} :
    offset ∈ wordStarts span.start none (Source.textOf (encode text) span) ↔
      (Source.cut? (encode text) span.start span.stop).isSome = true ∧
        StandsAlone (encode text) span offset := by
  rw [mem_wordStarts_iff]
  constructor
  · rintro ⟨head, rest, hinner, rfl, hfront, hback⟩
    have hne : head ++ (word ++ rest) ≠ [] := by simp [word]
    have hcut := (Source.textOf_eq_iff hne).mp hinner
    obtain ⟨before, inner, after, rfl, hstart, hstop, hwritten⟩ := Source.exists_split_of_cut? hcut
    obtain rfl := Utf8.encode_injective hwritten
    obtain ⟨start, stop⟩ := span
    simp only at hstart hstop
    subst hstart hstop
    refine ⟨by rw [hcut]; rfl, ?_⟩
    rw [← Utf8.length_encode_append]
    simp only [List.append_assoc]
    rw [Option.or_none] at hfront
    exact (standsAlone_iff before head rest after).mpr ⟨hfront, hback⟩
  · rintro ⟨hpart, halone⟩
    obtain ⟨before, head, rest, after, rfl, rfl, rfl⟩ := halone.exists_split hpart
    obtain ⟨hfront, hback⟩ := (standsAlone_iff before head rest after).mp halone
    have hinner := Source.textOf_encode before (head ++ (word ++ rest)) after
    simp only [List.append_assoc] at hinner
    exact ⟨head, rest, hinner, Utf8.length_encode_append before head, by rwa [Option.or_none],
      hback⟩

/-! ### The words of a tree -/

/-- **What a node is found to account for**, it accounts for. -/
theorem mem_startsAt_iff {label : Label} {children : List Node} {offset : Nat} :
    offset ∈ startsAt (encode text) label children.isEmpty ↔
      Accounts (encode text) (.node label children) offset := by
  unfold startsAt
  split
  · rename_i herror
    rw [mem_wordStarts_textOf]
    constructor
    · rintro ⟨hpart, halone⟩
      exact .error herror hpart halone
    · rintro (⟨hkind | hkind, _⟩ | ⟨_, hpart, halone⟩)
      · rw [herror] at hkind
        cases hkind
      · rw [herror] at hkind
        cases hkind
      · exact ⟨hpart, halone⟩
  · rename_i hother
    have hname : label.kind.isName = true ↔
        label.kind = .undefined ∨ label.kind = .identifier := by
      cases label.kind <;> simp [Kind.isName]
    have hne : word ≠ [] := by decide
    split
    · rename_i hleaf
      simp only [Bool.and_eq_true, beq_iff_eq, List.isEmpty_iff] at hleaf
      obtain ⟨⟨rfl, hkind⟩, hword⟩ := hleaf
      rw [List.mem_singleton]
      constructor
      · rintro rfl
        exact .leaf (hname.mp hkind) ((Source.textOf_eq_iff hne).mp hword)
      · rintro (_ | ⟨herror, _⟩)
        · rfl
        · exact absurd herror hother
    · rename_i hleaf
      constructor
      · exact fun h => absurd h List.not_mem_nil
      · rintro (⟨hkind, hword⟩ | ⟨herror, _⟩)
        · refine absurd ?_ hleaf
          rw [hname.mpr hkind, (Source.textOf_eq_iff hne).mpr hword]
          rfl
        · exact absurd herror hother

mutual

theorem mem_collect_iff {offset : Nat} : ∀ root : Node, offset ∈ collect (encode text) root ↔
    ∃ node, root.Holds node ∧ Accounts (encode text) node offset
  | .node label children => by
      rw [collect, List.mem_append, mem_startsAt_iff, mem_collectAll_iff children]
      constructor
      · rintro (h | ⟨c, hc, node, hholds, h⟩)
        · exact ⟨_, .self _, h⟩
        · exact ⟨node, .child hc hholds, h⟩
      · rintro ⟨node, _ | ⟨hc, hholds⟩, h⟩
        · exact Or.inl h
        · exact Or.inr ⟨_, hc, node, hholds, h⟩

theorem mem_collectAll_iff {offset : Nat} : ∀ nodes : List Node,
    offset ∈ collectAll (encode text) nodes ↔
      ∃ c ∈ nodes, ∃ node, c.Holds node ∧ Accounts (encode text) node offset
  | [] => by simp [collectAll]
  | child :: rest => by
      rw [collectAll, List.mem_append, mem_collect_iff child, mem_collectAll_iff rest,
        List.exists_mem_cons_iff]

end

/-- **The words that are respelled are exactly those that the tree accounts for.**  Their
offsets increase, and an offset is among them if and only if some node of the tree is a
leaf for a name that starts there and is the word, or is an error in whose range the word
stands alone there.  Nothing is assumed of the tree: errors may be nested, and ranges may
overlap, lie outside the text or cut characters. -/
theorem found_words_exact (text : String) (root : Node) :
    let source := Source.ofText text
    let found := starts root source
    found.Pairwise (· < ·) ∧
      ∀ offset, offset ∈ found ↔ ∃ node, root.Holds node ∧ Accounts source node offset := by
  intro source found
  refine ⟨pairwise_starts root source, fun offset => ?_⟩
  exact mem_starts_iff.trans (mem_collect_iff root)

end Respelling

end ScopeLint.Syntax
