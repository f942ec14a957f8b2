import ScopeLint.Text.Utf8

/-! # Reading back what was written

The reader of octets takes one octet at a time.  What it has read of a character
so far is `Begun`; the next octets either complete a character whose octets are
exactly those read (`Begun.last`), or the character is broken.  So a text that is
accepted is the text that its octets write (`encode_of_decode?`).

An octet that continues no character always starts afresh: what stands before it
is read as if the text ended there (`pieces_append`).
-/

namespace ScopeLint.Utf8

open Reading

/-- The octets read of a character that is not complete, and the state they lead
to. -/
inductive Begun : List Nat → Reading → Prop
  | ofTwo {a : Nat} : 0xC2 ≤ a → a ≤ 0xDF → Begun [a] (inside (a - 0xC0) 0 0x80 0xBF)
  | ofThree {a low high : Nat} : 0xE0 ≤ a → a ≤ 0xEF → 0x80 ≤ low → high ≤ 0xBF →
      (a = 0xE0 → 0xA0 ≤ low) → (a = 0xED → high ≤ 0x9F) →
        Begun [a] (inside (a - 0xE0) 1 low high)
  | ofThreeLast {a b : Nat} : 0xE0 ≤ a → a ≤ 0xEF → 0x80 ≤ b → b ≤ 0xBF →
      (a = 0xE0 → 0xA0 ≤ b) → (a = 0xED → b ≤ 0x9F) →
        Begun [a, b] (inside ((a - 0xE0) * 64 + b % 64) 0 0x80 0xBF)
  | ofFour {a low high : Nat} : 0xF0 ≤ a → a ≤ 0xF4 → 0x80 ≤ low → high ≤ 0xBF →
      (a = 0xF0 → 0x90 ≤ low) → (a = 0xF4 → high ≤ 0x8F) →
        Begun [a] (inside (a - 0xF0) 2 low high)
  | ofFourLater {a b : Nat} : 0xF0 ≤ a → a ≤ 0xF4 → 0x80 ≤ b → b ≤ 0xBF →
      (a = 0xF0 → 0x90 ≤ b) → (a = 0xF4 → b ≤ 0x8F) →
        Begun [a, b] (inside ((a - 0xF0) * 64 + b % 64) 1 0x80 0xBF)
  | ofFourLast {a b c : Nat} : 0xF0 ≤ a → a ≤ 0xF4 → 0x80 ≤ b → b ≤ 0xBF →
      (a = 0xF0 → 0x90 ≤ b) → (a = 0xF4 → b ≤ 0x8F) → 0x80 ≤ c → c ≤ 0xBF →
        Begun [a, b, c] (inside (((a - 0xF0) * 64 + b % 64) * 64 + c % 64) 0 0x80 0xBF)

/-- What one octet between characters can do. -/
theorem fresh_cases (b : Nat) :
    (b < 0x80 ∧ fresh b = ([some (Char.ofNat b)], between)) ∨
      (∃ r, Begun [b] r ∧ fresh b = ([], r)) ∨ fresh b = ([none], between) := by
  -- One case for each range of first octets, in the order in which they are tried.
  unfold fresh
  split
  · exact Or.inl ⟨‹_›, rfl⟩
  · refine Or.inr ?_
    split
    · exact Or.inl ⟨_, .ofTwo (by omega) (by omega), rfl⟩
    · split
      · subst_vars
        exact Or.inl ⟨_, .ofThree (a := 0xE0) (by omega) (by omega) (by omega) (by omega)
          (by omega) (by omega), rfl⟩
      · split
        · subst_vars
          exact Or.inl ⟨_, .ofThree (a := 0xED) (by omega) (by omega) (by omega) (by omega)
            (by omega) (by omega), rfl⟩
        · split
          · exact Or.inl ⟨_, .ofThree (by omega) (by omega) (by omega) (by omega) (by omega)
              (by omega), rfl⟩
          · split
            · subst_vars
              exact Or.inl ⟨_, .ofFour (a := 0xF0) (by omega) (by omega) (by omega) (by omega)
                (by omega) (by omega), rfl⟩
            · split
              · subst_vars
                exact Or.inl ⟨_, .ofFour (a := 0xF4) (by omega) (by omega) (by omega)
                  (by omega) (by omega) (by omega), rfl⟩
              · split
                · exact Or.inl ⟨_, .ofFour (by omega) (by omega) (by omega) (by omega)
                    (by omega) (by omega), rfl⟩
                · exact Or.inr rfl

/-- An octet that is expected and not the last goes on with the character. -/
theorem Begun.more {octets : List Nat} {r : Reading} (h : Begun octets r)
    {value owed low high b : Nat} (hr : r = inside value (owed + 1) low high) (hlow : low ≤ b)
    (hhigh : b ≤ high) :
    Begun (octets ++ [b]) (inside (value * 64 + b % 64) owed 0x80 0xBF) := by
  cases h with
  | ofTwo | ofThreeLast | ofFourLast =>
    have howed := (Reading.inside.inj hr).2.1
    omega
  | ofThree ha ha' hl hh hmin hmax =>
    obtain ⟨rfl, howed, rfl, rfl⟩ := Reading.inside.inj hr
    obtain rfl : owed = 0 := by omega
    exact .ofThreeLast ha ha' (by omega) (by omega) (by omega) (by omega)
  | ofFour ha ha' hl hh hmin hmax =>
    obtain ⟨rfl, howed, rfl, rfl⟩ := Reading.inside.inj hr
    obtain rfl : owed = 1 := by omega
    exact .ofFourLater ha ha' (by omega) (by omega) (by omega) (by omega)
  | ofFourLater ha ha' hb hb' hmin hmax =>
    obtain ⟨rfl, howed, rfl, rfl⟩ := Reading.inside.inj hr
    obtain rfl : owed = 0 := by omega
    exact .ofFourLast ha ha' hb hb' hmin hmax hlow hhigh

theorem toNat_octet {n : Nat} (h : n < 256) : (octet n).toNat = n := by
  rw [octet, UInt8.toNat_ofNat', Nat.mod_eq_of_lt h]

theorem toNat_ofNat {n : Nat} (h : n.isValidChar) : (Char.ofNat n).toNat = n := by
  rw [Char.ofNat, dif_pos h]
  rfl

/-- The octets of a character, as numbers. -/
theorem encodeChar_toNat {n : Nat} (h : n.isValidChar) :
    (encodeChar (Char.ofNat n)).map UInt8.toNat =
      if n < 0x80 then [n]
      else if n < 0x800 then [0xC0 + n / 64, 0x80 + n % 64]
      else if n < 0x10000 then [0xE0 + n / 4096, 0x80 + n / 64 % 64, 0x80 + n % 64]
      else [0xF0 + n / 262144, 0x80 + n / 4096 % 64, 0x80 + n / 64 % 64, 0x80 + n % 64] := by
  have hbound : n < 0x110000 := by rcases h with h | h <;> omega
  have hmod : ∀ m : Nat, (octet (0x80 + m % 64)).toNat = 0x80 + m % 64 :=
    fun m => toNat_octet (by omega)
  simp only [encodeChar, toNat_ofNat h]
  split
  · rw [List.map_singleton, toNat_octet (by omega)]
  · split
    · simp only [List.map_cons, List.map_nil, hmod]
      rw [toNat_octet (by omega)]
    · split
      · simp only [List.map_cons, List.map_nil, hmod]
        rw [toNat_octet (by omega)]
      · simp only [List.map_cons, List.map_nil, hmod]
        rw [toNat_octet (by omega)]

/-- The last octet that is expected completes a character that is written with the
octets read. -/
theorem Begun.last {octets : List Nat} {r : Reading} (h : Begun octets r)
    {value low high b : Nat} (hr : r = inside value 0 low high) (hlow : low ≤ b)
    (hhigh : b ≤ high) :
    (encodeChar (Char.ofNat (value * 64 + b % 64))).map UInt8.toNat = octets ++ [b] := by
  cases h with
  | ofThree | ofFour | ofFourLater =>
    have howed := (Reading.inside.inj hr).2.1
    omega
  | @ofTwo a ha ha' =>
    obtain ⟨rfl, _, rfl, rfl⟩ := Reading.inside.inj hr
    have hvalid : ((a - 0xC0) * 64 + b % 64).isValidChar := by
      unfold Nat.isValidChar
      omega
    rw [encodeChar_toNat hvalid, if_neg (by omega), if_pos (by omega)]
    have hlead : 0xC0 + ((a - 0xC0) * 64 + b % 64) / 64 = a := by omega
    have hlast : 0x80 + ((a - 0xC0) * 64 + b % 64) % 64 = b := by omega
    rw [hlead, hlast]
    rfl
  | @ofThreeLast a c ha ha' hc hc' hmin hmax =>
    obtain ⟨rfl, _, rfl, rfl⟩ := Reading.inside.inj hr
    generalize hn : ((a - 0xE0) * 64 + c % 64) * 64 + b % 64 = n
    -- The bounds of the second octet keep short forms and surrogates out.
    have hvalid : n.isValidChar := by
      unfold Nat.isValidChar
      omega
    rw [encodeChar_toNat hvalid, if_neg (by omega), if_neg (by omega), if_pos (by omega)]
    have hlead : 0xE0 + n / 4096 = a := by omega
    have hmiddle : 0x80 + n / 64 % 64 = c := by omega
    have hlast : 0x80 + n % 64 = b := by omega
    rw [hlead, hmiddle, hlast]
    rfl
  | @ofFourLast a c d ha ha' hc hc' hmin hmax hd hd' =>
    obtain ⟨rfl, _, rfl, rfl⟩ := Reading.inside.inj hr
    generalize hn : (((a - 0xF0) * 64 + c % 64) * 64 + d % 64) * 64 + b % 64 = n
    have hvalid : n.isValidChar := by
      unfold Nat.isValidChar
      omega
    rw [encodeChar_toNat hvalid, if_neg (by omega), if_neg (by omega), if_neg (by omega)]
    have hlead : 0xF0 + n / 262144 = a := by omega
    have hsecond : 0x80 + n / 4096 % 64 = c := by omega
    have hthird : 0x80 + n / 64 % 64 = d := by omega
    have hlast : 0x80 + n % 64 = b := by omega
    rw [hlead, hsecond, hthird, hlast]
    rfl

/-! ### Texts -/

theorem encode_append (text rest : List Char) :
    encode (text ++ rest) = encode text ++ encode rest :=
  List.flatMap_append

theorem Begun.exists_inside {octets : List Nat} {r : Reading} (h : Begun octets r) :
    ∃ value owed low high, r = inside value owed low high ∧ 0x80 ≤ low ∧ high ≤ 0xBF := by
  cases h with
  | ofThree _ _ hl hh _ _ | ofFour _ _ hl hh _ _ => exact ⟨_, _, _, _, rfl, hl, hh⟩
  | _ => exact ⟨_, _, _, _, rfl, Nat.le_refl _, Nat.le_refl _⟩

theorem run_cons (r : Reading) (b : UInt8) (bytes : List UInt8) :
    r.run (b :: bytes) = (r.step b.toNat).1 ++ (r.step b.toNat).2.run bytes := by
  cases r <;> rfl

theorem step_last {value low high b : Nat} (h : low ≤ b ∧ b ≤ high) :
    (inside value 0 low high).step b = ([some (Char.ofNat (value * 64 + b % 64))], between) := by
  simp only [step, if_pos h]

theorem step_more {value owed low high b : Nat} (h : low ≤ b ∧ b ≤ high) :
    (inside value (owed + 1) low high).step b =
      ([], inside (value * 64 + b % 64) owed 0x80 0xBF) := by
  simp only [step, if_pos h]

theorem step_broken {value owed low high b : Nat} (h : ¬ (low ≤ b ∧ b ≤ high)) :
    (inside value owed low high).step b = (none :: (fresh b).1, (fresh b).2) := by
  cases owed <;> simp only [step, if_neg h]

/-- A reader's state and the octets it has read of a character. -/
inductive Standing : List Nat → Reading → Prop
  | between : Standing [] between
  | inside {octets : List Nat} {r : Reading} : Begun octets r → Standing octets r

/-- Octets that are read without a broken character are those that the characters are
written with. -/
theorem run_written : ∀ (bytes : List UInt8) {octets : List Nat} {r : Reading} {text : List Char},
    Standing octets r → r.run bytes = text.map some →
      (encode text).map UInt8.toNat = octets ++ bytes.map UInt8.toNat
  | [], octets, r, text, hstand, hrun => by
      cases hstand with
      | between =>
        rw [List.map_eq_nil_iff.mp hrun.symm]
        rfl
      | inside hbegun =>
        cases hbegun <;> cases text <;> cases hrun
  | b :: bytes, octets, r, text, hstand, hrun => by
      -- A complete character and the rest of the text.
      have hcomplete : ∀ {c : Char}, some c :: Reading.between.run bytes = text.map some →
          (encodeChar c).map UInt8.toNat = octets ++ [b.toNat] →
            (encode text).map UInt8.toNat = octets ++ (b :: bytes).map UInt8.toNat := by
        intro c htext hchar
        cases text with
        | nil => cases htext
        | cons d rest =>
          obtain ⟨hcd, hrest⟩ := List.cons.inj htext
          have ih := run_written bytes .between hrest
          rw [encode, List.flatMap_cons, List.map_append, ← Option.some.inj hcd, hchar]
          show _ ++ (encode rest).map UInt8.toNat = _
          rw [ih]
          simp
      -- An octet that does not fit would leave a broken piece.
      have hbroken : ∀ {pieces : List Piece}, none :: pieces ≠ text.map some := by
        intro pieces htext
        cases text <;> cases htext
      rw [run_cons] at hrun
      cases hstand with
      | between =>
        rcases fresh_cases b.toNat with ⟨hlt, hfresh⟩ | ⟨r', hbegun, hfresh⟩ | hfresh
        · rw [step, hfresh] at hrun
          refine hcomplete hrun ?_
          have hvalid : b.toNat.isValidChar := Or.inl (by omega)
          rw [encodeChar_toNat hvalid, if_pos hlt]
          rfl
        · rw [step, hfresh] at hrun
          exact run_written bytes (.inside hbegun) hrun
        · rw [step, hfresh] at hrun
          exact absurd hrun hbroken
      | inside hbegun =>
        obtain ⟨value, owed, low, high, rfl, _, _⟩ := hbegun.exists_inside
        by_cases hb : low ≤ b.toNat ∧ b.toNat ≤ high
        · cases owed with
          | zero =>
            rw [step_last hb] at hrun
            exact hcomplete hrun (hbegun.last rfl hb.1 hb.2)
          | succ owed =>
            rw [step_more hb] at hrun
            have ih := run_written bytes (.inside (hbegun.more rfl hb.1 hb.2)) hrun
            rw [ih]
            simp
        · rw [step_broken hb] at hrun
          exact absurd hrun hbroken

theorem pieces_of_decode? {bytes : List UInt8} {text : List Char}
    (h : decode? bytes = some text) : pieces bytes = text.map some := by
  unfold decode? at h
  revert h
  generalize pieces bytes = ps
  induction ps generalizing text with
  | nil => intro h; cases h; rfl
  | cons p ps ih =>
    intro h
    rw [List.mapM_cons] at h
    cases p with
    | none => cases h
    | some c =>
      cases hrest : ps.mapM (m := Option) id with
      | none => simp [hrest] at h
      | some rest =>
        rw [ih hrest]
        have htext : text = c :: rest := by simpa [hrest] using h.symm
        rw [htext]
        rfl

/-- **A text that is accepted is the text that its octets write.** -/
theorem encode_of_decode? {bytes : List UInt8} {text : List Char}
    (h : decode? bytes = some text) : encode text = bytes := by
  have hwritten := run_written bytes .between (pieces_of_decode? h)
  rw [List.nil_append] at hwritten
  exact (List.map_inj_right fun _ _ => UInt8.toNat_inj.mp).mp hwritten

/-! ### Starting afresh -/

/-- The next octet that a state expects continues a character. -/
def ExpectsTail : Reading → Prop
  | between => True
  | inside _ _ low high => 0x80 ≤ low ∧ high ≤ 0xBF

theorem expectsTail_step (b : Nat) {r : Reading} (h : ExpectsTail r) :
    ExpectsTail (r.step b).2 := by
  have hfresh : ExpectsTail (fresh b).2 := by
    rcases fresh_cases b with ⟨_, hf⟩ | ⟨r', hbegun, hf⟩ | hf
    · rw [hf]; trivial
    · obtain ⟨_, _, _, _, rfl, hlow, hhigh⟩ := hbegun.exists_inside
      rw [hf]
      exact ⟨hlow, hhigh⟩
    · rw [hf]; trivial
  cases r with
  | between => exact hfresh
  | inside value owed low high =>
    by_cases hb : low ≤ b ∧ b ≤ high
    · cases owed with
      | zero => rw [step_last hb]; trivial
      | succ owed => rw [step_more hb]; exact ⟨Nat.le_refl _, Nat.le_refl _⟩
    · rw [step_broken hb]
      exact hfresh

theorem run_append_fresh {b : UInt8} (hb : isContinuation b = false) (rest : List UInt8) :
    ∀ (before : List UInt8) {r : Reading}, ExpectsTail r →
      r.run (before ++ b :: rest) = r.run before ++ Reading.between.run (b :: rest)
  | [], r, hr => by
      cases r with
      | between => rfl
      | inside value owed low high =>
        have hout : ¬ (low ≤ b.toNat ∧ b.toNat ≤ high) := by
          intro hin
          obtain ⟨hlow, hhigh⟩ := hr
          have hcontinues : isContinuation b = true := by
            simp only [isContinuation, Bool.and_eq_true, decide_eq_true_eq]
            omega
          rw [hb] at hcontinues
          exact Bool.false_ne_true hcontinues
        rw [List.nil_append, run_cons, run_cons, step_broken hout]
        rfl
  | a :: before, r, hr => by
      rw [List.cons_append, run_cons, run_cons,
        run_append_fresh hb rest before (expectsTail_step a.toNat hr), List.append_assoc]

/-- An octet that continues no character is read as at the head of a text. -/
theorem pieces_append {b : UInt8} (hb : isContinuation b = false) (before rest : List UInt8) :
    pieces (before ++ b :: rest) = pieces before ++ pieces (b :: rest) :=
  run_append_fresh hb rest before trivial

/-- An accepted text begins with no octet that continues a character. -/
theorem isContinuation_of_decode? {b : UInt8} {rest : List UInt8} {text : List Char}
    (h : decode? (b :: rest) = some text) : isContinuation b = false := by
  have hrun : Reading.between.run (b :: rest) = text.map some := pieces_of_decode? h
  rw [run_cons, step] at hrun
  cases hb : isContinuation b with
  | false => rfl
  | true =>
    simp only [isContinuation, Bool.and_eq_true, decide_eq_true_eq] at hb
    have hfresh : fresh b.toNat = ([none], between) := by
      rcases fresh_cases b.toNat with ⟨hlt, _⟩ | ⟨r, hbegun, _⟩ | hf
      · omega
      · cases hbegun <;> omega
      · exact hf
    rw [hfresh] at hrun
    cases text <;> cases hrun

end ScopeLint.Utf8
