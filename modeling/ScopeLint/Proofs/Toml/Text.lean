import Mathlib.Tactic.SplitIfs
import ScopeLint.Toml.Text

/-! # Texts that are read as they were written

What a form holds between its quotes is a row of pieces: characters in their own writing or an
escape, and between triple quotes single and double quotes as well (`Text.Written`).  The reader
takes a text back from any such row (`Text.Written.body_eq`), and what the writer puts
between quotes is one, in each form that it chooses (`Text.written_contentIn`).  So every text
is read as it was written (`Text.read_write`).
-/

namespace ScopeLint.Toml.Text

variable {form : Form} {c : Char} {run : Nat} {text content rest : List Char}

/-! ### Pieces -/

/-- A piece stands for a character: it does not begin like the end of the text, the reader
takes the character from it and goes on behind it, and only a line break has one in it. -/
structure StandsFor (form : Form) (c : Char) (piece : List Char) : Prop where
  ne_nil : piece ≠ []
  head?_ne : piece.head? ≠ some form.quote
  body_eq : ∀ tail, body form .between (piece ++ tail) = push c (body form .between tail)
  eq_newline : '\n' ∈ piece → '\n' = c

/-- What is written for a text between the quotes of a form, where `run` quotes of the text
stand right before it: no third quote in a row is written as itself. -/
inductive Written (form : Form) : Nat → List Char → List Char → Prop
  | nil (run : Nat) : Written form run [] []
  | quote {run : Nat} {text content : List Char} (htripled : form.tripled = true) (hrun : run < 2)
    (more : Written form (run + 1) text content) :
    Written form run (form.quote :: text) (form.quote :: content)
  | piece {run : Nat} {c : Char} {text piece content : List Char} (hpiece : StandsFor form c piece)
    (more : Written form 0 text content) : Written form run (c :: text) (piece ++ content)

/-! ### Reading up to the quotes at the end -/

theorem body_quote_of_some {kept : Nat} {after : List Char}
    (h : close? form rest = some (kept, after)) :
    body form .between (form.quote :: rest) = some (List.replicate kept form.quote, after) := by
  simp [body, h]

theorem body_quote_of_none (h : close? form rest = none) :
    body form .between (form.quote :: rest) = push form.quote (body form .between rest) := by
  simp [body, h]

/-- One quote, or two, end no text of triple quotes. -/
theorem close?_eq_none (htripled : form.tripled = true) (h : rest.head? ≠ some form.quote) :
    close? form rest = none ∧ close? form (form.quote :: rest) = none := by
  cases rest with
  | nil => simp [close?, htripled]
  | cons a rest =>
    have ha : a ≠ form.quote := by simpa using h
    cases rest <;> simp [close?, htripled, ha]

/-- In the row of quotes that ends a text, those before the last three belong to it. -/
theorem close?_quotes (h : rest.head? ≠ some form.quote) (htripled : form.tripled = true) :
    close? form (form.quote :: form.quote :: rest) = some (0, rest) ∧
      close? form (form.quote :: form.quote :: form.quote :: rest) = some (1, rest) ∧
      close? form (form.quote :: form.quote :: form.quote :: form.quote :: rest) =
        some (2, rest) := by
  cases rest with
  | nil => simp [close?, htripled]
  | cons a rest =>
    have ha : a ≠ form.quote := by simpa using h
    simp [close?, htripled, ha]

theorem quotes_of_tripled (h : form.tripled = true) :
    form.quotes = [form.quote, form.quote, form.quote] := by
  rw [Form.quotes, if_pos h]
  rfl

theorem body_quotes (h : rest.head? ≠ some form.quote) :
    body form .between (form.quotes ++ rest) = some ([], rest) := by
  by_cases htripled : form.tripled = true
  · rw [quotes_of_tripled htripled]
    exact body_quote_of_some (close?_quotes h htripled).1
  · have hclose : close? form rest = some (0, rest) := by simp [close?, htripled]
    rw [Form.quotes, if_neg htripled]
    exact body_quote_of_some hclose

theorem StandsFor.head?_append_ne {piece : List Char} (h : StandsFor form c piece)
    (rest : List Char) : (piece ++ rest).head? ≠ some form.quote := by
  cases piece with
  | nil => exact absurd rfl h.ne_nil
  | cons a piece => exact h.head?_ne

/-- **A text is read from what is written for it**, up to its closing quotes. -/
theorem Written.body_eq (h : Written form run text content)
    (hrest : rest.head? ≠ some form.quote) :
    body form .between (content ++ (form.quotes ++ rest)) = some (text, rest) := by
  induction h with
  | nil => exact body_quotes hrest
  | piece hpiece more ih =>
    rw [List.append_assoc, hpiece.body_eq, ih]
    rfl
  | quote htripled hrun more ih =>
    -- A row of quotes goes on at most once, and may run into the closing quotes.
    cases more with
    | nil =>
      rw [quotes_of_tripled htripled]
      exact body_quote_of_some (close?_quotes hrest htripled).2.1
    | piece hpiece more =>
      rw [List.append_assoc] at ih
      rw [List.cons_append, List.append_assoc,
        body_quote_of_none (close?_eq_none htripled (hpiece.head?_append_ne _)).1, ih]
      rfl
    | quote _ hrun' more =>
      cases more with
      | nil =>
        rw [quotes_of_tripled htripled]
        exact body_quote_of_some (close?_quotes hrest htripled).2.2
      | piece hpiece more =>
        rw [List.cons_append, List.append_assoc] at ih
        rw [List.cons_append, List.cons_append, List.append_assoc,
          body_quote_of_none (close?_eq_none htripled (hpiece.head?_append_ne _)).2, ih]
        rfl
      | quote _ hrun'' _ => omega

/-! ### The pieces of the writer -/

theorem toNat_lt_of_isControl (h : isControl c = true) : c.toNat < 128 := by
  simp only [isControl, Bool.or_eq_true, decide_eq_true_eq, beq_iff_eq] at h
  omega

theorem ne_of_isPlain {d : Char} (hc : isPlain c = true) (hd : isPlain d = false) : c ≠ d := by
  rintro rfl
  exact Bool.noConfusion (hc.symm.trans hd)

theorem atBreak_of_isPlain (h : isPlain c = true) (rest : List Char) : atBreak c rest = false := by
  have hnewline : c ≠ '\n' := ne_of_isPlain h (by decide)
  have hreturn : c ≠ '\r' := ne_of_isPlain h (by decide)
  simp [atBreak, hnewline, hreturn]

/-- A character may stand as itself where it means nothing else. -/
theorem StandsFor.self (hquote : c ≠ form.quote) (hescape : form.escapes = true → c ≠ '\\')
    (hplain : isPlain c = true ∨ form.tripled = true ∧ c = '\n') : StandsFor form c [c] where
  ne_nil := List.cons_ne_nil _ _
  head?_ne := by simpa using hquote
  eq_newline := List.mem_singleton.mp
  body_eq tail := by
    have hslash : ¬ (form.escapes = true ∧ c = '\\') := fun h => hescape h.1 h.2
    obtain hplain | ⟨htripled, rfl⟩ := hplain
    · simp [body, hquote, hslash, atBreak_of_isPlain hplain, hplain]
    · simp [body, hquote, htripled, atBreak]

theorem hexValue?_hexDigit : ∀ n < 16, hexValue? (hexDigit n) = some n := by decide

/-- What an escape is: a letter that stands for the character, its code, or the character. -/
theorem escape_cases (c : Char) :
    (∃ e, escape c = ['\\', e] ∧ unescape? e = some c) ∨
      (isControl c = true ∧ escape c =
        ['\\', 'u', '0', '0', hexDigit (c.toNat / 16), hexDigit (c.toNat % 16)]) ∨
      (isControl c = false ∧ c ≠ '"' ∧ c ≠ '\\' ∧ escape c = [c]) := by
  unfold escape
  split_ifs with h h h h h hquote hslash hcontrol
  iterate 5 exact .inl ⟨_, rfl, by rw [h]; rfl⟩
  · exact .inl ⟨_, rfl, by rw [hquote]; rfl⟩
  · exact .inl ⟨_, rfl, by rw [hslash]; rfl⟩
  · exact .inr (.inl ⟨hcontrol, rfl⟩)
  · exact .inr (.inr ⟨Bool.not_eq_true _ |>.mp hcontrol, hquote, hslash, rfl⟩)

theorem body_code (hcontrol : isControl c = true) (tail : List Char) :
    body form .escape ('u' :: '0' :: '0' :: hexDigit (c.toNat / 16) :: hexDigit (c.toNat % 16) ::
      tail) = push c (body form .between tail) := by
  have hlt := toNat_lt_of_isControl hcontrol
  have hhigh := hexValue?_hexDigit (c.toNat / 16) (by omega)
  have hlow := hexValue?_hexDigit (c.toNat % 16) (by omega)
  have hzero : hexValue? '0' = some 0 := by decide
  have hvalid : c.toNat.isValidChar := c.valid
  have hcode : ofCode? (c.toNat / 16 * 16 + c.toNat % 16) = some c := by
    rw [Nat.div_add_mod', ofCode?, if_pos hvalid, Char.ofNat_toNat]
  simp [body, unescape?, hhigh, hlow, hzero, hcode]

theorem newline_not_mem_escape (c : Char) : '\n' ∉ escape c := by
  have hdigit : ∀ n < 16, hexDigit n ≠ '\n' := by decide
  obtain ⟨e, hpiece, he⟩ | ⟨hcontrol, hpiece⟩ | ⟨hcontrol, _, _, hpiece⟩ := escape_cases c
  · have hne : e ≠ '\n' := by
      rintro rfl
      cases he
    simp [hpiece, hne.symm]
  · have hlt := toNat_lt_of_isControl hcontrol
    have hhigh := hdigit (c.toNat / 16) (by omega)
    have hlow := hdigit (c.toNat % 16) (by omega)
    simp [hpiece, hhigh.symm, hlow.symm]
  · have hne : c ≠ '\n' := by
      rintro rfl
      exact absurd hcontrol (by decide)
    simp [hpiece, hne.symm]

/-- Between double quotes an escape stands for its character. -/
theorem StandsFor.escape (hescapes : form.escapes = true) (c : Char) :
    StandsFor form c (escape c) := by
  have hquote : form.quote = '"' := by simpa [Form.escapes] using hescapes
  have hslash (tail : List Char) :
      body form .between ('\\' :: tail) = body form .escape tail := by
    simp [body, hquote, hescapes]
  have hnewline : '\n' ∈ Text.escape c → '\n' = c := fun h => absurd h (newline_not_mem_escape c)
  obtain ⟨e, hpiece, he⟩ | ⟨hcontrol, hpiece⟩ | ⟨hcontrol, hne, hne', hpiece⟩ := escape_cases c
  · refine ⟨by simp [hpiece], by simp [hpiece, hquote], fun tail => ?_, hnewline⟩
    rw [hpiece, List.cons_append, hslash]
    simp [body, he]
  · refine ⟨by simp [hpiece], by simp [hpiece, hquote], fun tail => ?_, hnewline⟩
    rw [hpiece, List.cons_append, hslash]
    exact body_code hcontrol tail
  · rw [hpiece]
    exact .self (hquote ▸ hne) (fun _ => hne') (.inl (by simp [isPlain, hcontrol]))

/-! ### What the writer writes -/

theorem written_escapeLine (hescapes : form.escapes = true) (text : List Char) :
    Written form 0 text (escapeLine text) := by
  induction text with
  | nil => exact .nil 0
  | cons c text ih => exact .piece (.escape hescapes c) ih

theorem written_escapeLines (hrun : run ≤ 2) (text : List Char) :
    Written .longBasic run text (escapeLines run text) := by
  induction text generalizing run with
  | nil => exact .nil run
  | cons c text ih =>
    rw [escapeLines]
    split_ifs with hquote hlast hbreak
    · subst hquote
      exact .piece (.escape rfl '"') (ih (Nat.zero_le 2))
    · subst hquote
      exact .quote rfl (by omega) (ih (by omega))
    · subst hbreak
      exact .piece (.self (by decide) (by decide) (.inr ⟨rfl, rfl⟩)) (ih (Nat.zero_le 2))
    · exact .piece (.escape rfl c) (ih (Nat.zero_le 2))

theorem written_literal (hquote : '\'' ∉ text) (hplain : ∀ c ∈ text, isPlain c = true) :
    Written .literal run text text := by
  induction text generalizing run with
  | nil => exact .nil run
  | cons c text ih =>
    obtain ⟨hc, htext⟩ := List.forall_mem_cons.mp hplain
    obtain ⟨hne, hmem⟩ := List.ne_and_not_mem_of_not_mem_cons hquote
    have hself : StandsFor .literal c [c] := .self hne.symm (fun h => by cases h) (.inl hc)
    exact .piece hself (ih hmem htext)

theorem written_longLiteral (hrun : run ≤ 2) (htriple : hasTriple '\'' run text = false)
    (hplain : ∀ c ∈ text, isPlain c = true ∨ c = '\n') : Written .longLiteral run text text := by
  induction text generalizing run with
  | nil => exact .nil run
  | cons c text ih =>
    obtain ⟨hc, htext⟩ := List.forall_mem_cons.mp hplain
    rw [hasTriple] at htriple
    split_ifs at htriple with hquote
    · subst hquote
      simp only [Bool.or_eq_false_iff, decide_eq_false_iff_not] at htriple
      exact .quote rfl (by omega) (ih (by omega) htriple.2 htext)
    · have hself : StandsFor .longLiteral c [c] :=
        .self hquote (fun h => by cases h) (hc.imp_right fun h => ⟨rfl, h⟩)
      exact .piece hself (ih (Nat.zero_le 2) htriple htext)

theorem plain_of_hasControl (h : hasControl text = false) :
    ∀ c ∈ text, isPlain c = true ∨ c = '\n' := by
  intro c hc
  have hcontrol := List.any_eq_false.mp h c hc
  by_cases hnewline : c = '\n'
  · exact .inr hnewline
  · refine .inl ?_
    by_cases htab : c = '\t'
    · simp [isPlain, htab]
    · simpa [isPlain, htab, hnewline] using hcontrol

/-- **What is written for a text** in the form that is chosen for it. -/
theorem written_contentIn (text : List Char) :
    Written (formOf text) 0 text (contentIn (formOf text) text) := by
  have hbasic : Written .basic 0 text (contentIn .basic text) := written_escapeLine rfl text
  have hlong : Written .longBasic 0 text (contentIn .longBasic text) :=
    written_escapeLines (Nat.zero_le 2) text
  simp only [formOf, Bool.and_eq_true, Bool.not_eq_true', List.contains_eq_mem,
    decide_eq_false_iff_not]
  split_ifs with _ hliteral _ htriple
  · exact hbasic
  · obtain ⟨⟨hcontrol, hbreak⟩, hquote⟩ := hliteral
    refine written_literal hquote fun c hc => (plain_of_hasControl hcontrol c hc).resolve_right ?_
    rintro rfl
    exact hbreak hc
  · exact hlong
  · exact written_longLiteral (Nat.zero_le 2) htriple.2 (plain_of_hasControl htriple.1)
  · exact hlong
  · exact hbasic

/-! ### Reading what is written -/

/-- A line break is written for a line break alone. -/
theorem Written.newline_mem (h : Written form run text content) (hmem : '\n' ∈ content) :
    '\n' ∈ text := by
  induction h with
  | nil => exact hmem
  | quote htripled hrun more ih =>
    rw [List.mem_cons] at hmem ⊢
    exact hmem.imp_right ih
  | piece hpiece more ih =>
    rw [List.mem_append] at hmem
    exact List.mem_cons.mpr (hmem.imp hpiece.eq_newline ih)

theorem newline?_eq_none {q : Char} (h : '\n' ∉ content) (hbreak : q ≠ '\n')
    (hreturn : q ≠ '\r') : newline? (content ++ q :: rest) = none := by
  unfold newline?
  split
  · rename_i more heq
    cases content <;> simp_all
  · rename_i more heq
    cases content with
    | nil => simp_all
    | cons a content => cases content <;> simp_all
  · rfl

/-- Where the quote stands once, it is not taken for the first of three. -/
theorem read_of_single (hform : form = .basic ∨ form = .literal)
    (h : ¬ [form.quote, form.quote] <+: content) :
    read (form.quote :: content) = body form .between content := by
  obtain rfl | rfl := hform
  all_goals
    unfold read
    split
    all_goals simp_all [Form.basic, Form.literal, Form.longBasic]

theorem read_of_tripled (hform : form = .longBasic ∨ form = .longLiteral) (content : List Char) :
    read (form.quotes ++ content) = body form .between ((newline? content).getD content) := by
  obtain rfl | rfl := hform <;> rfl

theorem enclose_of_single (hsingle : form.tripled = false) (content rest : List Char) :
    enclose form false content ++ rest = form.quote :: (content ++ (form.quotes ++ rest)) := by
  simp [enclose, Form.quotes, hsingle]

theorem read_enclose_of_single (hform : form = .basic ∨ form = .literal)
    (h : Written form 0 text content) (hrest : rest.head? ≠ some form.quote) :
    read (enclose form false content ++ rest) = some (text, rest) := by
  have hsingle : form.tripled = false := by obtain rfl | rfl := hform <;> rfl
  have hquotes : form.quotes = [form.quote] := by
    rw [Form.quotes, hsingle]
    rfl
  have hrow : ¬ [form.quote, form.quote] <+: content ++ (form.quotes ++ rest) := by
    cases h with
    | nil =>
      rintro ⟨more, hmore⟩
      rw [hquotes] at hmore
      obtain rfl : form.quote :: more = rest := (List.cons.inj hmore).2
      exact hrest rfl
    | quote htripled => simp [hsingle] at htripled
    | piece hpiece more =>
      rintro ⟨more, hmore⟩
      rw [List.append_assoc] at hmore
      exact hpiece.head?_append_ne _ (congrArg List.head? hmore).symm
  rw [enclose_of_single hsingle, read_of_single hform hrow, h.body_eq hrest]

theorem read_enclose_of_tripled {lines : Bool} (hform : form = .longBasic ∨ form = .longLiteral)
    (h : Written form 0 text content) (hlines : '\n' ∈ text → lines = true)
    (hrest : rest.head? ≠ some form.quote) :
    read (enclose form lines content ++ rest) = some (text, rest) := by
  cases lines with
  | true =>
    have henclose : enclose form true content ++ rest =
        form.quotes ++ '\n' :: (content ++ (form.quotes ++ rest)) := by
      simp [enclose]
    rw [henclose, read_of_tripled hform]
    exact h.body_eq hrest
  | false =>
    have henclose : enclose form false content ++ rest =
        form.quotes ++ (content ++ (form.quotes ++ rest)) := by
      simp [enclose]
    -- Without a line break in the text none stands after the quotes, to be left out.
    have hbreak : newline? (content ++ (form.quotes ++ rest)) = none := by
      have hcontent : '\n' ∉ content := fun hmem => Bool.noConfusion (hlines (h.newline_mem hmem))
      obtain rfl | rfl := hform <;> exact newline?_eq_none hcontent (by decide) (by decide)
    rw [henclose, read_of_tripled hform, hbreak]
    exact h.body_eq hrest

theorem formOf_cases (text : List Char) :
    (formOf text = .basic ∨ formOf text = .literal) ∨
      (formOf text = .longBasic ∨ formOf text = .longLiteral) := by
  simp only [formOf]
  split_ifs <;> simp

/-- **Every text is read as it was written**, before anything but a quote. -/
theorem read_write (text : List Char) (h : rest.head? ≠ some '"') (h' : rest.head? ≠ some '\'') :
    read (write text ++ rest) = some (text, rest) := by
  have hwritten := written_contentIn text
  have hrest : rest.head? ≠ some (formOf text).quote := by
    obtain (hf | hf) | (hf | hf) := formOf_cases text <;> rw [hf] <;> assumption
  rw [write]
  obtain hform | hform := formOf_cases text
  · have hsingle : (formOf text).tripled = false := by obtain hf | hf := hform <;> rw [hf] <;> rfl
    simp only [hsingle, Bool.false_and]
    exact read_enclose_of_single hform hwritten hrest
  · have htripled : (formOf text).tripled = true := by obtain hf | hf := hform <;> rw [hf] <;> rfl
    simp only [htripled, Bool.true_and]
    exact read_enclose_of_tripled hform hwritten List.contains_iff_mem.mpr hrest

/-- A text is written from a quote on. -/
theorem exists_write_eq (text : List Char) :
    ∃ q rest, write text = q :: rest ∧ (q = '"' ∨ q = '\'') := by
  obtain (h | h) | (h | h) := formOf_cases text <;> rw [write, h]
  · exact ⟨'"', _, rfl, .inl rfl⟩
  · exact ⟨'\'', _, rfl, .inr rfl⟩
  · exact ⟨'"', _, rfl, .inl rfl⟩
  · exact ⟨'\'', _, rfl, .inr rfl⟩

theorem head?_write_ne (text rest : List Char) (hc : c ≠ '"') (hc' : c ≠ '\'') :
    (write text ++ rest).head? ≠ some c := by
  obtain ⟨q, more, hwrite, rfl | rfl⟩ := exists_write_eq text <;> rw [hwrite]
  · simpa using hc.symm
  · simpa using hc'.symm

/-- No filler stands before a text. -/
theorem skipFiller_write (text rest : List Char) :
    skipBlanks (write text ++ rest) = write text ++ rest ∧
      skipFiller false (write text ++ rest) = write text ++ rest := by
  obtain ⟨q, more, hwrite, rfl | rfl⟩ := exists_write_eq text <;> rw [hwrite] <;> exact ⟨rfl, rfl⟩

end ScopeLint.Toml.Text
