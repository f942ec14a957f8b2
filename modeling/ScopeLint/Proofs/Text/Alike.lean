import Mathlib.Data.List.Forall2
import ScopeLint.Proofs.Text.Written

/-! # Texts with the same places

Two sources are alike when they differ only in octets that are characters by
themselves and no line breaks (`Utf8.Alike`).  Such an octet is read alone, whatever
the reader has read before it, and takes one UTF-16 code unit.  So the two sources
have the same character boundaries and line breaks, and each offset has the same
point and the same column in both.
-/

namespace ScopeLint

namespace Utf8

open Reading

/-- **Octets that are the same**, or both characters by themselves and no line
breaks. -/
def Alike (b b' : UInt8) : Prop :=
  b = b' ∨ b.toNat < 0x80 ∧ b'.toNat < 0x80 ∧ b ≠ Source.newline ∧ b' ≠ Source.newline

/-- Pieces that are both read or both broken, and take the same code units. -/
def PieceAlike (p p' : Piece) : Prop :=
  p.isSome = p'.isSome ∧ Utf16.unitsOf (p.getD '\ufffd') = Utf16.unitsOf (p'.getD '\ufffd')

theorem pieceAlike_refl (p : Piece) : PieceAlike p p := ⟨rfl, rfl⟩

theorem unitsOf_ofNat {n : Nat} (h : n < 0x80) : Utf16.unitsOf (Char.ofNat n) = 1 := by
  have hvalid : n.isValidChar := Or.inl (by omega)
  rw [Utf16.unitsOf, toNat_ofNat hvalid, if_pos (by omega)]

/-- A character of one octet is read alone, behind what was broken off before it. -/
theorem exists_step_ascii {r : Reading} (h : ExpectsTail r) :
    ∃ broken : List Piece, ∀ n < 0x80,
      r.step n = (broken ++ [some (Char.ofNat n)], between) := by
  have hfresh : ∀ n < 0x80, fresh n = ([some (Char.ofNat n)], between) :=
    fun n hn => if_pos hn
  cases r with
  | between => exact ⟨[], hfresh⟩
  | inside value owed low high =>
    refine ⟨[none], fun n hn => ?_⟩
    have hout : ¬ (low ≤ n ∧ n ≤ high) := by
      obtain ⟨hlow, _⟩ := h
      omega
    rw [step_broken hout, hfresh n hn]
    rfl

/-- Sources that are alike are read alike. -/
theorem run_alike {bytes bytes' : List UInt8} (h : List.Forall₂ Alike bytes bytes') :
    ∀ {r : Reading}, ExpectsTail r → List.Forall₂ PieceAlike (r.run bytes) (r.run bytes') := by
  induction h with
  | nil => exact fun _ => List.forall₂_same.mpr fun p _ => pieceAlike_refl p
  | @cons b b' bytes bytes' hb _ ih =>
    intro r hr
    rw [run_cons, run_cons]
    rcases hb with rfl | ⟨hb, hb', _⟩
    · exact List.rel_append (List.forall₂_same.mpr fun p _ => pieceAlike_refl p)
        (ih (expectsTail_step _ hr))
    · obtain ⟨broken, hstep⟩ := exists_step_ascii hr
      have hpiece : PieceAlike (some (Char.ofNat b.toNat)) (some (Char.ofNat b'.toNat)) :=
        ⟨rfl, (unitsOf_ofNat hb).trans (unitsOf_ofNat hb').symm⟩
      rw [hstep _ hb, hstep _ hb']
      refine List.rel_append (List.rel_append ?_ ?_) (ih trivial)
      · exact List.forall₂_same.mpr fun p _ => pieceAlike_refl p
      · exact .cons hpiece .nil

theorem pieces_alike {bytes bytes' : List UInt8} (h : List.Forall₂ Alike bytes bytes') :
    List.Forall₂ PieceAlike (pieces bytes) (pieces bytes') :=
  run_alike h trivial

/-! ### Texts and columns -/

theorem decode?_of_pieces {bytes : List UInt8} {text : List Char}
    (h : pieces bytes = text.map some) : decode? bytes = some text := by
  rw [decode?, h]
  clear h
  induction text with
  | nil => rfl
  | cons c text ih =>
    rw [List.map_cons, List.mapM_cons, ih]
    rfl

theorem pieces_encode_self (text : List Char) : pieces (encode text) = text.map some := by
  have hread := pieces_encode text []
  rwa [List.append_nil, show pieces [] = [] from rfl, List.append_nil] at hread

theorem decode?_encode (text : List Char) : decode? (encode text) = some text :=
  decode?_of_pieces (pieces_encode_self text)

/-- What is alike to a written text is a written text. -/
theorem exists_encode_of_alike {text : List Char} {bytes : List UInt8}
    (h : List.Forall₂ Alike (encode text) bytes) : ∃ text', bytes = encode text' := by
  have hread := pieces_encode_self text
  have hpieces := pieces_alike h
  rw [hread] at hpieces
  obtain ⟨text', htext⟩ : ∃ text' : List Char, pieces bytes = text'.map some := by
    generalize pieces bytes = ps at hpieces
    clear h hread
    induction text generalizing ps with
    | nil =>
      cases hpieces
      exact ⟨[], rfl⟩
    | cons c text ih =>
      cases hpieces with
      | @cons _ p _ ps hp hrest =>
        obtain ⟨rest, rfl⟩ := ih _ hrest
        obtain ⟨c', rfl⟩ := Option.isSome_iff_exists.mp hp.1.symm
        exact ⟨c' :: rest, rfl⟩
  exact ⟨text', (encode_of_decode? (decode?_of_pieces htext)).symm⟩

theorem units_decodeLossy_alike {bytes bytes' : List UInt8} (h : List.Forall₂ Alike bytes bytes') :
    Utf16.units (decodeLossy bytes) = Utf16.units (decodeLossy bytes') := by
  have hpieces := pieces_alike h
  unfold decodeLossy
  generalize pieces bytes = ps at hpieces
  generalize pieces bytes' = ps' at hpieces
  induction hpieces with
  | nil => rfl
  | cons hp _ ih => rw [List.map_cons, List.map_cons, Utf16.units, Utf16.units, hp.2, ih]

theorem Alike.isContinuation {b b' : UInt8} (h : Alike b b') :
    isContinuation b = isContinuation b' := by
  rcases h with rfl | ⟨hb, hb', _⟩
  · rfl
  · have hnone : ∀ b : UInt8, b.toNat < 0x80 → Utf8.isContinuation b = false := by
      intro b hb
      rw [Utf8.isContinuation, decide_eq_false (by omega), Bool.false_and]
    rw [hnone b hb, hnone b' hb']

theorem Alike.newline_iff {b b' : UInt8} (h : Alike b b') :
    b = Source.newline ↔ b' = Source.newline := by
  rcases h with rfl | ⟨_, _, hb, hb'⟩
  · exact Iff.rfl
  · exact ⟨fun he => absurd he hb, fun he => absurd he hb'⟩

end Utf8

namespace Source

open Utf8 (encode)

/-- **Sources with the same places.** -/
def Alike (source source' : Source) : Prop := List.Forall₂ Utf8.Alike source source'

theorem alike_refl (source : Source) : Alike source source :=
  List.forall₂_same.mpr fun _ _ => Or.inl rfl

theorem Alike.append {a a' b b' : Source} (ha : Alike a a') (hb : Alike b b') :
    Alike (a ++ b) (a' ++ b') :=
  List.rel_append ha hb

variable {source source' : Source}

theorem Alike.getElem? (h : Alike source source') (i : Nat) :
    Option.Rel Utf8.Alike source[i]? source'[i]? := by
  induction h generalizing i with
  | nil => exact .none
  | cons hb _ ih =>
    cases i with
    | zero => exact .some hb
    | succ i => exact ih i

/-- Line breaks stand at the same offsets. -/
theorem Alike.newline_iff (h : Alike source source') (i : Nat) :
    source[i]? = some newline ↔ source'[i]? = some newline := by
  have hoctets := h.getElem? i
  generalize source[i]? = b at hoctets
  generalize source'[i]? = b' at hoctets
  cases hoctets with
  | none => exact Iff.rfl
  | some hb => simpa using hb.newline_iff

/-- Characters start at the same offsets. -/
theorem Alike.isBoundary (h : Alike source source') (offset : Nat) :
    source.isBoundary offset = source'.isBoundary offset := by
  have hoctets := h.getElem? offset
  unfold Source.isBoundary
  rw [List.Forall₂.length_eq h]
  generalize source[offset]? = b at hoctets
  generalize source'[offset]? = b' at hoctets
  cases hoctets with
  | none => rfl
  | some hb => simp only [hb.isContinuation]

/-- Offsets have the same columns. -/
theorem Alike.column (h : Alike source source') (offset byteColumn : Nat) :
    Utf16.column source offset byteColumn = Utf16.column source' offset byteColumn := by
  unfold Utf16.column
  rw [List.Forall₂.length_eq h]
  split
  · exact Utf8.units_decodeLossy_alike (List.forall₂_take _ (List.forall₂_drop _ h))
  · rfl

/-! ### Cuts of a written text -/

/-- A written text can be cut behind any of its characters. -/
theorem isBoundary_encode (before after : List Char) :
    isBoundary (encode (before ++ after)) (encode before).length = true := by
  rw [Utf8.encode_append]
  unfold isBoundary
  rw [List.getElem?_append_right (Nat.le_refl _), Nat.sub_self]
  cases hafter : encode after with
  | nil => simp
  | cons b rest =>
    have hread : Utf8.decode? (b :: rest) = some after := hafter ▸ Utf8.decode?_encode after
    simp [Utf8.isContinuation_of_decode? hread]

theorem isBoundary_zero (source : Source) : source.isBoundary 0 = true := by
  unfold isBoundary
  cases source <;> rfl

theorem isBoundary_length (source : Source) : source.isBoundary source.length = true := by
  unfold isBoundary
  rw [List.getElem?_eq_none (Nat.le_refl _)]
  exact beq_self_eq_true _

/-- Between two boundaries in order there is something to cut. -/
theorem cut?_of_isBoundary {start stop : Nat} (hstart : source.isBoundary start = true)
    (hstop : source.isBoundary stop = true) (hle : start ≤ stop) (hin : stop ≤ source.length) :
    source.cut? start stop = some ((source.drop start).take (stop - start)) := by
  have hspan : (⟨start, stop⟩ : Span).start ≤ (⟨start, stop⟩ : Span).stop ∧
      (⟨start, stop⟩ : Span).stop ≤ source.length := ⟨hle, hin⟩
  rw [cut?, hstart, hstop, bytesOf?, if_pos hspan]
  rfl

end Source

end ScopeLint
