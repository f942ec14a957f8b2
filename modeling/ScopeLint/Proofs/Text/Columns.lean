import ScopeLint.Proofs.Text.Cuts

/-! # Columns of a line

Behind one octet more of a line, the column is the same or one greater, whatever the
octets are: an octet begins a character, which counts at once as a broken one, or goes
on with one, which counts already and may turn out to take two code units
(`Utf16.unitsFrom_concat`).  So columns never exceed the octets of the line up to
there and never decrease along the line, and past the end of the source, where they
count octets, they are greater still.

Being bounded by a number that fits a machine word, a column is computed in machine
words without overflow (`Utf16.columnWord?_eq`).
-/

namespace ScopeLint.Utf16

open Utf8 (Reading)

/-- The UTF-16 code units of the octets that follow. -/
def unitsFrom (r : Reading) (bytes : List UInt8) : Nat :=
  units ((r.run bytes).map fun piece => piece.getD '\ufffd')

theorem unitsFrom_between (bytes : List UInt8) :
    unitsFrom .between bytes = units (Utf8.decodeLossy bytes) := rfl

theorem unitsFrom_cons (r : Reading) (b : UInt8) (bytes : List UInt8) :
    unitsFrom r (b :: bytes) =
      units ((r.step b.toNat).1.map fun piece => piece.getD '\ufffd') +
        unitsFrom (r.step b.toNat).2 bytes := by
  rw [unitsFrom, Utf8.run_cons, List.map_append, units_append]
  rfl

/-- What is left of a character counts as a broken one. -/
theorem unitsFrom_inside_nil (value owed low high : Nat) :
    unitsFrom (.inside value owed low high) [] = 1 := rfl

theorem unitsOf_one_or_two (c : Char) : 1 ≤ unitsOf c ∧ unitsOf c ≤ 2 := by
  unfold unitsOf
  split <;> decide

theorem units_singleton (c : Char) : units [c] = unitsOf c := Nat.add_zero _

/-- One octet is one code unit: a character of its own, a broken one, or the start of
one. -/
theorem unitsFrom_singleton (b : UInt8) : unitsFrom .between [b] = 1 := by
  rw [unitsFrom_cons, Reading.step]
  rcases Utf8.fresh_cases b.toNat with ⟨hb, hfresh⟩ | ⟨r, hbegun, hfresh⟩ | hfresh
  · rw [hfresh]
    show units [Char.ofNat b.toNat] + 0 = 1
    rw [units_singleton, Utf8.unitsOf_ofNat hb]
  · obtain ⟨value, owed, low, high, rfl, _, _⟩ := hbegun.exists_inside
    rw [hfresh]
    rfl
  · rw [hfresh]
    rfl

/-- **One octet more adds one code unit at most**, and takes none away. -/
theorem unitsFrom_concat (b : UInt8) : ∀ (bytes : List UInt8) (r : Reading),
    unitsFrom r bytes ≤ unitsFrom r (bytes ++ [b]) ∧
      unitsFrom r (bytes ++ [b]) ≤ unitsFrom r bytes + 1
  | [], .between => by
      rw [List.nil_append, unitsFrom_singleton]
      exact ⟨Nat.zero_le _, Nat.le_add_left _ _⟩
  | [], .inside value owed low high => by
      rw [List.nil_append, unitsFrom_inside_nil, unitsFrom_cons]
      by_cases hb : low ≤ b.toNat ∧ b.toNat ≤ high
      · cases owed with
        | zero =>
          rw [Utf8.step_last hb]
          show 1 ≤ units [_] + 0 ∧ units [_] + 0 ≤ 1 + 1
          rw [units_singleton]
          exact unitsOf_one_or_two _
        | succ owed =>
          rw [Utf8.step_more hb]
          exact ⟨Nat.le_refl 1, Nat.le_succ 1⟩
      · -- The character is broken off, and the octet counts for itself.
        have hsingle := unitsFrom_singleton b
        rw [unitsFrom_cons, Reading.step] at hsingle
        rw [Utf8.step_broken hb, List.map_cons, units, Nat.add_assoc, hsingle]
        decide
  | head :: bytes, r => by
      obtain ⟨hge, hle⟩ := unitsFrom_concat b bytes (r.step head.toNat).2
      rw [List.cons_append, unitsFrom_cons, unitsFrom_cons]
      omega

/-- A text has no more code units than octets. -/
theorem units_decodeLossy_le (bytes : List UInt8) :
    units (Utf8.decodeLossy bytes) ≤ bytes.length := by
  induction bytes using List.reverseRecOn with
  | nil => exact Nat.le_refl 0
  | append_singleton bytes b ih =>
    have hstep := (unitsFrom_concat b bytes .between).2
    rw [unitsFrom_between, unitsFrom_between] at hstep
    rw [List.length_append, List.length_singleton]
    omega

/-- More octets have no fewer code units. -/
theorem units_decodeLossy_append_le (bytes more : List UInt8) :
    units (Utf8.decodeLossy bytes) ≤ units (Utf8.decodeLossy (bytes ++ more)) := by
  induction more using List.reverseRecOn with
  | nil => rw [List.append_nil]
  | append_singleton more b ih =>
    rw [← List.append_assoc]
    exact Nat.le_trans ih (unitsFrom_concat b (bytes ++ more) .between).1

/-! ### Columns -/

section Columns

variable {source : Source}

theorem column_of_le {lineStart b : Nat} (h : lineStart ≤ b) (hb : b ≤ source.length) :
    column source b (b - lineStart) =
      units (Utf8.decodeLossy ((source.drop lineStart).take (b - lineStart))) := by
  rw [column, if_pos ⟨Nat.sub_le _ _, hb⟩, Nat.sub_sub_self h]

theorem column_of_gt {b byteColumn : Nat} (hb : source.length < b) :
    column source b byteColumn = byteColumn :=
  if_neg fun h => Nat.not_le.mpr hb h.2

/-- A column never exceeds the octets it stands for. -/
theorem column_le (source : Source) (b byteColumn : Nat) :
    column source b byteColumn ≤ byteColumn := by
  unfold column
  split
  · exact Nat.le_trans (units_decodeLossy_le _) (List.length_take_le ..)
  · exact Nat.le_refl _

/-- **Columns never decrease along a line**, nor past the end of the source. -/
theorem column_mono {lineStart b c : Nat} (hb : lineStart ≤ b) (hbc : b ≤ c) :
    column source b (b - lineStart) ≤ column source c (c - lineStart) := by
  by_cases hc : c ≤ source.length
  · rw [column_of_le hb (Nat.le_trans hbc hc), column_of_le (Nat.le_trans hb hbc) hc]
    have hmore : c - lineStart = (b - lineStart) + (c - b) := by omega
    rw [hmore, List.take_add]
    exact units_decodeLossy_append_le _ _
  · rw [column_of_gt (Nat.not_le.mp hc)]
    calc column source b (b - lineStart) ≤ b - lineStart := column_le ..
      _ ≤ c - lineStart := Nat.sub_le_sub_right hbc lineStart

/-- The column behind a part of a written line counts the code units of that part. -/
theorem column_encode (before line after : List Char) :
    column (Utf8.encode (before ++ (line ++ after))) (Utf8.encode (before ++ line)).length
      ((Utf8.encode (before ++ line)).length - (Utf8.encode before).length) = units line := by
  have hlength := Utf8.length_encode_append before line
  have hin : (Utf8.encode (before ++ line)).length ≤
      (Utf8.encode (before ++ (line ++ after))).length := by
    rw [← List.append_assoc, Utf8.length_encode_append (before ++ line)]
    exact Nat.le_add_right ..
  rw [column_of_le (hlength ▸ Nat.le_add_right ..) hin, hlength, Nat.add_sub_cancel_left,
    Utf8.encode_append, List.drop_left, Utf8.encode_append, List.take_left, Utf8.decodeLossy_encode]

/-- **Between two boundaries of a written text columns count its code units.** -/
theorem column_eq_add_units {text : List Char} {lineStart b c : Nat}
    (hline : Source.isBoundary (Utf8.encode text) lineStart = true)
    (hb : Source.isBoundary (Utf8.encode text) b = true)
    (hc : Source.isBoundary (Utf8.encode text) c = true) (hlb : lineStart ≤ b) (hbc : b ≤ c) :
    ∃ inner, Source.cut? (Utf8.encode text) b c = some (Utf8.encode inner) ∧
      column (Utf8.encode text) c (c - lineStart) =
        column (Utf8.encode text) b (b - lineStart) + units inner := by
  obtain ⟨before, rest, htext, rfl⟩ := Source.isBoundary_encode_iff.mp hline
  obtain ⟨upTo, rest', htext', rfl⟩ := Source.isBoundary_encode_iff.mp hb
  obtain ⟨upTo', after, htext'', rfl⟩ := Source.isBoundary_encode_iff.mp hc
  obtain ⟨line, rfl, rfl⟩ := Utf8.exists_append_of_le (htext.symm.trans htext') hlb
  obtain ⟨inner, rfl, rfl⟩ := Utf8.exists_append_of_le (htext'.symm.trans htext'') hbc
  have hcut := Source.cut?_encode (before ++ line) inner after
  have hfirst := column_encode before line (inner ++ after)
  have hsecond := column_encode before (line ++ inner) after
  rw [List.append_assoc, ← htext] at hcut
  rw [← htext] at hfirst
  rw [List.append_assoc, ← htext, ← List.append_assoc] at hsecond
  exact ⟨inner, hcut, by rw [hsecond, hfirst, units_append]⟩

end Columns

/-! ### Columns in machine words -/

/-- The difference of two words, when it is one. -/
def subWord? (a b : UInt64) : Option UInt64 := if b ≤ a then some (a - b) else none

/-- The sum of two words, when it is one. -/
def addWord? (a b : UInt64) : Option UInt64 :=
  if a.toNat + b.toNat < UInt64.size then some (a + b) else none

/-- The code units of a text added to a word, one character after the other. -/
def countWord? (count : UInt64) : List Char → Option UInt64
  | [] => some count
  | c :: rest => (addWord? count (UInt64.ofNat (unitsOf c))).bind fun next => countWord? next rest

/-- **A column in machine words**: none when a count does not fit a word.  Where there is
no such line in the source the column is the distance in octets. -/
def columnWord? (source : Source) (b byteColumn : UInt64) : Option UInt64 :=
  match (subWord? b byteColumn).bind fun start => source.bytesOf? ⟨start.toNat, b.toNat⟩ with
  | some line => countWord? 0 (Utf8.decodeLossy line)
  | none => some byteColumn

theorem countWord?_eq : ∀ (text : List Char) {count : UInt64},
    count.toNat + units text < UInt64.size →
      ∃ total, countWord? count text = some total ∧ total.toNat = count.toNat + units text
  | [], count, _ => ⟨count, rfl, rfl⟩
  | c :: rest, count, h => by
      rw [units] at h
      have hc : (UInt64.ofNat (unitsOf c)).toNat = unitsOf c := by
        have hle := (unitsOf_one_or_two c).2
        exact UInt64.toNat_ofNat_of_lt' (Nat.lt_of_le_of_lt hle (by decide))
      have hfits : count.toNat + (UInt64.ofNat (unitsOf c)).toNat < UInt64.size := by omega
      have hsum : (count + UInt64.ofNat (unitsOf c)).toNat = count.toNat + unitsOf c := by
        rw [UInt64.toNat_add, hc]
        exact Nat.mod_eq_of_lt (hc ▸ hfits)
      have hrest : (count + UInt64.ofNat (unitsOf c)).toNat + units rest < UInt64.size := by omega
      obtain ⟨total, htotal, hnat⟩ := countWord?_eq rest hrest
      refine ⟨total, ?_, by rw [hnat, hsum, units, Nat.add_assoc]⟩
      rw [countWord?, addWord?, if_pos hfits]
      exact htotal

/-- **No column overflows.** -/
theorem columnWord?_eq (source : Source) (b byteColumn : UInt64) :
    ∃ word, columnWord? source b byteColumn = some word ∧
      word.toNat = column source b.toNat byteColumn.toNat := by
  have hle := column_le source b.toNat byteColumn.toNat
  by_cases hline : byteColumn.toNat ≤ b.toNat ∧ b.toNat ≤ source.length
  · -- The line is found, and its units fit because the distance in octets does.
    have hstart : (b - byteColumn).toNat = b.toNat - byteColumn.toNat :=
      UInt64.toNat_sub_of_le b byteColumn hline.1
    have hbytes : ((subWord? b byteColumn).bind fun start =>
        source.bytesOf? ⟨start.toNat, b.toNat⟩) =
          some ((source.drop (b.toNat - byteColumn.toNat)).take byteColumn.toNat) := by
      rw [subWord?, if_pos (UInt64.le_iff_toNat_le.mpr hline.1), Option.bind_some, hstart,
        Source.bytesOf?, if_pos ⟨Nat.sub_le _ _, hline.2⟩, Span.length, Nat.sub_sub_self hline.1]
    rw [column, if_pos hline] at hle
    have hfits : (0 : UInt64).toNat + units (Utf8.decodeLossy
        ((source.drop (b.toNat - byteColumn.toNat)).take byteColumn.toNat)) < UInt64.size := by
      have hword := byteColumn.toNat_lt
      rw [show (0 : UInt64).toNat = 0 from rfl, show UInt64.size = 2 ^ 64 from rfl]
      omega
    obtain ⟨word, hword, hnat⟩ := countWord?_eq _ hfits
    refine ⟨word, ?_, ?_⟩
    · rw [columnWord?, hbytes]
      exact hword
    · rw [hnat, column, if_pos hline]
      exact Nat.zero_add _
  · have hbytes : ((subWord? b byteColumn).bind fun start =>
        source.bytesOf? ⟨start.toNat, b.toNat⟩) = none := by
      unfold subWord?
      split
      · rename_i hword
        have hsub := UInt64.le_iff_toNat_le.mp hword
        rw [Option.bind_some, Source.bytesOf?, if_neg fun h => hline ⟨hsub, h.2⟩]
      · rfl
    exact ⟨byteColumn, by rw [columnWord?, hbytes], by rw [column, if_neg hline]⟩

/-- **Columns are bounded, never decrease, and are exact.**  In machine words a column is
always found, and is no greater than the distance in octets; from a fixed start of a line
on columns do not decrease, also past the end of the source; and in a text that is read
without broken characters, columns at boundaries differ by the code units between. -/
theorem column_bounded_monotone_exact (source : Source) :
    (∀ b byteColumn : UInt64, ∃ word, columnWord? source b byteColumn = some word ∧
      word.toNat = column source b.toNat byteColumn.toNat ∧ word ≤ byteColumn) ∧
    (∀ lineStart b c : Nat, lineStart ≤ b → b ≤ c →
      column source b (b - lineStart) ≤ column source c (c - lineStart)) ∧
    (∀ text, Utf8.decode? source = some text → ∀ lineStart b c : Nat,
      source.isBoundary lineStart = true → source.isBoundary b = true →
      source.isBoundary c = true → lineStart ≤ b → b ≤ c →
        ∃ inner, source.cut? b c = some (Utf8.encode inner) ∧
          column source c (c - lineStart) = column source b (b - lineStart) + units inner ∧
          (b < c → column source b (b - lineStart) < column source c (c - lineStart))) := by
  refine ⟨fun b byteColumn => ?_, fun lineStart b c hb hbc => column_mono hb hbc, ?_⟩
  · obtain ⟨word, hword, hnat⟩ := columnWord?_eq source b byteColumn
    refine ⟨word, hword, hnat, UInt64.le_iff_toNat_le.mpr ?_⟩
    rw [hnat]
    exact column_le ..
  · intro text htext lineStart b c hline hb hc hlb hbc
    obtain rfl := Utf8.encode_of_decode? htext
    obtain ⟨inner, hcut, hcolumn⟩ := column_eq_add_units hline hb hc hlb hbc
    refine ⟨inner, hcut, hcolumn, fun hlt => ?_⟩
    have hne : inner ≠ [] := by
      rintro rfl
      obtain ⟨before, inner, after, _, hstart, hstop, hnil⟩ := Source.exists_split_of_cut? hcut
      obtain rfl : inner = [] := Utf8.encode_eq_nil hnil.symm
      rw [List.append_nil] at hstop
      omega
    have hpos := units_pos hne
    omega

/-- A character of two octets and one of two code units: the column behind both is that
behind the first and the units of the second. -/
theorem column_behind_pair :
    Utf8.decode? (Utf8.encode ['é', '😀']) = some ['é', '😀'] ∧
      ∃ inner, Source.cut? (Utf8.encode ['é', '😀']) 2 6 = some (Utf8.encode inner) ∧
        column (Utf8.encode ['é', '😀']) 6 6 = column (Utf8.encode ['é', '😀']) 2 2 + units inner ∧
        (2 < 6 → column (Utf8.encode ['é', '😀']) 2 2 < column (Utf8.encode ['é', '😀']) 6 6) :=
  have hread : Utf8.decode? (Utf8.encode ['é', '😀']) = some ['é', '😀'] := Utf8.decode?_encode _
  ⟨hread, (column_bounded_monotone_exact _).2.2 _ hread 0 2 6 (by decide) (by decide) (by decide)
    (by decide) (by decide)⟩

end ScopeLint.Utf16
