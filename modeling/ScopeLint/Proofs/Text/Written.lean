import Mathlib.Data.List.DropRight
import ScopeLint.Proofs.Text.Places

/-! # Texts are read as they were written

The octets that a text writes are read as the text, whatever follows them
(`Utf8.pieces_encode`).  So a span of a written text that has a text of its own
cuts the text between characters (`Source.exists_split_of_textOf`), and the
position of such a cut is told by the characters before it: by the line breaks
among them, and by the UTF-16 code units after the last (`Source.positionOf_encode`).
-/

namespace ScopeLint

namespace Utf8

open Reading

/-! ### First octets -/

theorem fresh_two {a : Nat} (h : 0xC2 ≤ a) (h' : a ≤ 0xDF) :
    fresh a = ([], inside (a - 0xC0) 0 0x80 0xBF) := by
  rw [fresh, if_neg (by omega), if_pos ⟨h, h'⟩]

/-- After the first of three octets the second is expected, unless the two make a
short form or a surrogate. -/
theorem fresh_three {a b : Nat} (h : 0xE0 ≤ a) (h' : a ≤ 0xEF) (hb : 0x80 ≤ b) (hb' : b ≤ 0xBF)
    (hmin : a = 0xE0 → 0xA0 ≤ b) (hmax : a = 0xED → b ≤ 0x9F) :
    ∃ low high, fresh a = ([], inside (a - 0xE0) 1 low high) ∧ low ≤ b ∧ b ≤ high := by
  rw [fresh, if_neg (by omega), if_neg (by omega)]
  by_cases hfirst : a = 0xE0
  · subst hfirst
    exact ⟨_, _, rfl, hmin rfl, hb'⟩
  · rw [if_neg hfirst]
    by_cases hsurrogate : a = 0xED
    · subst hsurrogate
      exact ⟨_, _, rfl, hb, hmax rfl⟩
    · rw [if_neg hsurrogate, if_pos (by omega)]
      exact ⟨_, _, rfl, hb, hb'⟩

/-- After the first of four octets the second is expected, unless the two make a
short form or go beyond the last character. -/
theorem fresh_four {a b : Nat} (h : 0xF0 ≤ a) (h' : a ≤ 0xF4) (hb : 0x80 ≤ b) (hb' : b ≤ 0xBF)
    (hmin : a = 0xF0 → 0x90 ≤ b) (hmax : a = 0xF4 → b ≤ 0x8F) :
    ∃ low high, fresh a = ([], inside (a - 0xF0) 2 low high) ∧ low ≤ b ∧ b ≤ high := by
  rw [fresh, if_neg (by omega), if_neg (by omega), if_neg (by omega), if_neg (by omega),
    if_neg (by omega)]
  by_cases hfirst : a = 0xF0
  · subst hfirst
    exact ⟨_, _, rfl, hmin rfl, hb'⟩
  · rw [if_neg hfirst]
    by_cases hend : a = 0xF4
    · subst hend
      exact ⟨_, _, rfl, hb, hmax rfl⟩
    · rw [if_neg hend, if_pos (by omega)]
      exact ⟨_, _, rfl, hb, hb'⟩

/-! ### Characters and texts -/

theorem run_octet {n : Nat} (h : n < 256) (r : Reading) (rest : List UInt8) :
    r.run (octet n :: rest) = (r.step n).1 ++ (r.step n).2.run rest := by
  rw [run_cons, toNat_octet h]

/-- A character that is written is read. -/
theorem run_encodeChar (c : Char) (rest : List UInt8) :
    between.run (encodeChar c ++ rest) = some c :: between.run rest := by
  have hvalid : c.toNat.isValidChar := c.valid
  have hc : Char.ofNat c.toNat = c := Char.ofNat_toNat c
  unfold encodeChar
  generalize c.toNat = n at hvalid hc
  have hbound : n < 0x110000 := by rcases hvalid with h | h <;> omega
  simp only
  -- One case for each number of octets; in each the value read is the number of the character.
  split
  case isTrue hone =>
    rw [List.singleton_append, run_octet (by omega), step, fresh, if_pos hone, hc]
    rfl
  case isFalse hone =>
    split
    case isTrue htwo =>
      have hn : (0xC0 + n / 64 - 0xC0) * 64 + (0x80 + n % 64) % 64 = n := by omega
      rw [List.cons_append, List.singleton_append, run_octet (by omega), run_octet (by omega), step,
        fresh_two (by omega) (by omega), step_last ⟨by omega, by omega⟩, hn, hc]
      rfl
    case isFalse htwo =>
      split
      case isTrue hthree =>
        have hn : ((0xE0 + n / 4096 - 0xE0) * 64 + (0x80 + n / 64 % 64) % 64) * 64 +
            (0x80 + n % 64) % 64 = n := by omega
        obtain ⟨low, high, hfresh, hsecond⟩ := fresh_three (a := 0xE0 + n / 4096)
          (b := 0x80 + n / 64 % 64) (by omega) (by omega) (by omega) (by omega)
          (by omega) (by unfold Nat.isValidChar at hvalid; omega)
        rw [List.cons_append, List.cons_append, List.singleton_append, run_octet (by omega),
          run_octet (by omega), run_octet (by omega), step, hfresh, step_more hsecond,
          step_last ⟨by omega, by omega⟩, hn, hc]
        rfl
      case isFalse hthree =>
        have hn : (((0xF0 + n / 262144 - 0xF0) * 64 + (0x80 + n / 4096 % 64) % 64) * 64 +
            (0x80 + n / 64 % 64) % 64) * 64 + (0x80 + n % 64) % 64 = n := by omega
        obtain ⟨low, high, hfresh, hsecond⟩ := fresh_four (a := 0xF0 + n / 262144)
          (b := 0x80 + n / 4096 % 64) (by omega) (by omega) (by omega) (by omega)
          (by omega) (by omega)
        rw [List.cons_append, List.cons_append, List.cons_append, List.singleton_append,
          run_octet (by omega), run_octet (by omega), run_octet (by omega), run_octet (by omega),
          step, hfresh, step_more hsecond, step_more ⟨by omega, by omega⟩,
          step_last ⟨by omega, by omega⟩, hn, hc]
        rfl

/-- **A text that is written is read**, whatever follows it. -/
theorem pieces_encode (text : List Char) (rest : List UInt8) :
    pieces (encode text ++ rest) = text.map some ++ pieces rest := by
  induction text with
  | nil => rfl
  | cons c text ih =>
    rw [encode, List.flatMap_cons, List.append_assoc]
    show between.run (encodeChar c ++ (encode text ++ rest)) = _
    rw [run_encodeChar, List.map_cons, List.cons_append, ← ih]
    rfl

theorem decodeLossy_encode (text : List Char) : decodeLossy (encode text) = text := by
  have hread := pieces_encode text []
  rw [List.append_nil, show pieces [] = [] from rfl, List.append_nil] at hread
  rw [decodeLossy, hread, List.map_map]
  exact List.map_id text

theorem map_some_injective {text text' : List Char} (h : text.map some = text'.map some) :
    text = text' :=
  (List.map_inj_right fun _ _ => Option.some.inj).mp h

/-- **Where a character starts, a written text is cut in two.** -/
theorem exists_split_of_encode {text : List Char} {before rest : List UInt8} {b : UInt8}
    (h : encode text = before ++ b :: rest) (hb : isContinuation b = false) :
    ∃ first second, text = first ++ second ∧ before = encode first ∧ b :: rest = encode second := by
  -- What stands before the octet is read as if the text ended there.
  have hread : text.map some = pieces before ++ pieces (b :: rest) := by
    have hall := pieces_encode text []
    rw [List.append_nil, show pieces [] = [] from rfl, List.append_nil, h,
      pieces_append hb] at hall
    exact hall.symm
  obtain ⟨first, second, rfl, hfirst, _⟩ := List.map_eq_append_iff.mp hread
  have hbefore : encode first = before := by
    have hwritten := run_written before .between hfirst.symm
    rw [List.nil_append] at hwritten
    exact (List.map_inj_right fun _ _ => UInt8.toNat_inj.mp).mp hwritten
  refine ⟨first, second, rfl, hbefore.symm, ?_⟩
  rw [encode_append, hbefore] at h
  exact (List.append_cancel_left h).symm

/-- What a written text starts with in octets, it starts with in characters. -/
theorem exists_of_encode_eq_append {text head : List Char} {rest : List UInt8}
    (h : encode text = encode head ++ rest) : ∃ tail, text = head ++ tail := by
  have hread := pieces_encode text []
  rw [List.append_nil, show pieces [] = [] from rfl, List.append_nil, h, pieces_encode] at hread
  obtain ⟨first, tail, rfl, hfirst, _⟩ := List.map_eq_append_iff.mp hread.symm
  exact ⟨tail, by rw [map_some_injective hfirst]⟩

end Utf8

namespace Source

open Utf8 (encode encodeChar)

/-! ### Cuts -/

/-- **A span with a text cuts a written text between characters.** -/
theorem exists_split_of_textOf {text word : List Char} {span : Span}
    (h : textOf (encode text) span = word) (hword : word ≠ []) :
    ∃ before after, text = before ++ word ++ after ∧
      span.start = (encode before).length ∧ span.stop = (encode (before ++ word)).length := by
  obtain ⟨hstart, bytes, rest, hdrop, hstop, hbytes⟩ := exists_bytes_of_textOf (h ▸ hword)
  rw [h] at hbytes
  have hwritten : encode word = bytes := Utf8.encode_of_decode? hbytes
  obtain ⟨b, more, rfl⟩ : ∃ b more, bytes = b :: more := by
    refine List.exists_cons_of_ne_nil fun hnil => hword ?_
    rw [hnil] at hbytes
    exact (Option.some.inj hbytes).symm
  have hcut : encode text = (encode text).take span.start ++ b :: (more ++ rest) := by
    rw [← List.cons_append, ← hdrop, List.take_append_drop]
  obtain ⟨before, second, rfl, hbefore, hsecond⟩ :=
    Utf8.exists_split_of_encode hcut (Utf8.isContinuation_of_decode? hbytes)
  rw [← List.cons_append, ← hwritten] at hsecond
  obtain ⟨after, rfl⟩ := Utf8.exists_of_encode_eq_append hsecond.symm
  have hlength : span.start = (encode before).length := by
    rw [← hbefore, List.length_take, Nat.min_eq_left hstart]
  refine ⟨before, after, (List.append_assoc _ _ _).symm, hlength, ?_⟩
  rw [hstop, hlength, Utf8.encode_append, List.length_append, hwritten]

/-! ### Positions -/

/-- The characters after the last line break. -/
def lastLine (text : List Char) : List Char := text.rtakeWhile (· ≠ '\n')

theorem lastLine_newline (text : List Char) : lastLine (text ++ ['\n']) = [] :=
  List.rtakeWhile_concat_neg _ _ _ (by decide)

theorem lastLine_concat (text : List Char) {c : Char} (h : c ≠ '\n') :
    lastLine (text ++ [c]) = lastLine text ++ [c] :=
  List.rtakeWhile_concat_pos _ _ _ (decide_eq_true h)

/-- Only the line break is written with the octet of a line break. -/
theorem newline_not_mem_encodeChar {c : Char} (h : c ≠ '\n') : newline ∉ encodeChar c := by
  intro hmem
  have hvalid : c.toNat.isValidChar := c.valid
  have hoctets := Utf8.encodeChar_toNat hvalid
  rw [Char.ofNat_toNat] at hoctets
  have hten : 10 ∈ (encodeChar c).map UInt8.toNat := List.mem_map.mpr ⟨newline, hmem, rfl⟩
  have hne : c.toNat ≠ 10 := by
    intro he
    exact h (by rw [← Char.ofNat_toNat c, he])
  rw [hoctets] at hten
  split at hten
  · exact hne (List.mem_singleton.mp hten).symm
  · split at hten
    · simp only [List.mem_cons, List.not_mem_nil, or_false] at hten
      omega
    · split at hten
      · simp only [List.mem_cons, List.not_mem_nil, or_false] at hten
        omega
      · simp only [List.mem_cons, List.not_mem_nil, or_false] at hten
        omega

/-- Octets without a line break go on along the line. -/
theorem foldl_advance {bytes : List UInt8} (h : newline ∉ bytes) (p : Point) :
    bytes.foldl advance p = ⟨p.row, p.byteColumn + bytes.length⟩ := by
  induction bytes generalizing p with
  | nil => rfl
  | cons b bytes ih =>
    have hb : b ≠ newline := fun he => h (he ▸ List.mem_cons_self ..)
    rw [List.foldl_cons, advance, if_neg hb, ih fun hmem => h (List.mem_cons_of_mem _ hmem),
      List.length_cons]
    simp only [Point.mk.injEq, true_and]
    omega

/-- **The point behind a written text** is at the end of its last line. -/
theorem foldl_advance_encode (text : List Char) :
    (encode text).foldl advance ⟨0, 0⟩ = ⟨text.count '\n', (encode (lastLine text)).length⟩ := by
  induction text using List.reverseRecOn with
  | nil => rfl
  | append_singleton text c ih =>
    have hone : encode [c] = encodeChar c := List.flatMap_singleton ..
    rw [Utf8.encode_append, List.foldl_append, ih, List.count_append, hone]
    by_cases hc : c = '\n'
    · subst hc
      rw [lastLine_newline]
      rfl
    · have hcount : [c].count '\n' = 0 := List.count_singleton.trans (by simp [hc])
      rw [lastLine_concat _ hc, foldl_advance (newline_not_mem_encodeChar hc), hcount,
        Utf8.encode_append, List.length_append, hone, Nat.add_zero]

theorem pointAt_encode (before after : List Char) :
    pointAt (encode (before ++ after)) (encode before).length =
      ⟨before.count '\n', (encode (lastLine before)).length⟩ := by
  rw [pointAt, Utf8.encode_append, List.take_left, foldl_advance_encode]

/-- **The position of a cut is told by the characters before it**: the line by the line
breaks, and the column by the code units after the last of them. -/
theorem positionOf_encode (before after : List Char) :
    positionOf (encode (before ++ after)) (encode before).length
        (pointAt (encode (before ++ after)) (encode before).length) =
      ⟨before.count '\n', Utf16.units (lastLine before)⟩ := by
  -- The last line is read from the source as it stands, for a line starts between characters.
  obtain ⟨head, hhead⟩ : ∃ head, head ++ lastLine before = before :=
    List.rtakeWhile_suffix (· ≠ '\n') before
  have hlength : (encode before).length =
      (encode head).length + (encode (lastLine before)).length := by
    rw [← List.length_append, ← Utf8.encode_append, hhead]
  have hsource : encode (before ++ after) =
      encode head ++ (encode (lastLine before) ++ encode after) := by
    rw [← List.append_assoc, ← Utf8.encode_append, hhead, ← Utf8.encode_append]
  have hline : ((encode (before ++ after)).drop
      ((encode before).length - (encode (lastLine before)).length)).take
        (encode (lastLine before)).length = encode (lastLine before) := by
    rw [hlength, Nat.add_sub_cancel, hsource, List.drop_left, List.take_left]
  have hinside : (encode (lastLine before)).length ≤ (encode before).length ∧
      (encode before).length ≤ (encode (before ++ after)).length := by
    rw [Utf8.encode_append, List.length_append]
    omega
  rw [positionOf, pointAt_encode, Utf16.column, if_pos hinside, hline, Utf8.decodeLossy_encode]

end Source

end ScopeLint
