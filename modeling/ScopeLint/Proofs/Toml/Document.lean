import ScopeLint.Proofs.Toml.Text
import ScopeLint.Toml.Document

/-! # Documents that are read line by line

A key is read as it was written (`Key.read_write`), and so is a text that is a value
(`Value.read_write`).  The reader of a document takes one line after the other
(`Document.ReadsAs`).  Pairs of distinct keys and values, and a table of such pairs after them,
are the data that it then gives (`Document.read_eq`).
-/

namespace ScopeLint.Toml

open Text (Written)

/-! ## Keys -/

namespace Key

variable {c : Char} {rest : List Char}

/-- Whether a key may be written from a character on. -/
def opens (c : Char) : Bool := isBare c || c == '"' || c == '\''

theorem ne_of_opens {d : Char} (hc : opens c = true) (hd : opens d = false) : c ≠ d := by
  rintro rfl
  exact Bool.noConfusion (hc.symm.trans hd)

theorem formOf_cases (text : List Char) : formOf text = .basic ∨ formOf text = .literal := by
  simp only [formOf]
  split_ifs <;> simp

theorem written_contentIn (text : List Char) :
    Written (formOf text) 0 text (Text.contentIn (formOf text) text) := by
  have hbasic : Written .basic 0 text (Text.contentIn .basic text) :=
    Text.written_escapeLine rfl text
  simp only [formOf, Bool.and_eq_true, Bool.not_eq_true', List.contains_eq_mem,
    decide_eq_false_iff_not]
  split_ifs with hliteral
  · obtain ⟨⟨hcontrol, hquote⟩, _⟩ := hliteral
    refine Text.written_literal hquote fun c hc => ?_
    have hplain := List.any_eq_false.mp hcontrol c hc
    by_cases htab : c = '\t'
    · simp [isPlain, htab]
    · simpa [isPlain, htab] using hplain
  · exact hbasic

theorem write_cases (key : String) :
    (write key = key.toList ∧ key.toList ≠ [] ∧ ∀ c ∈ key.toList, isBare c = true) ∨
      write key =
        Text.enclose (formOf key.toList) false (Text.contentIn (formOf key.toList) key.toList) := by
  simp only [write]
  split_ifs with hbare
  · simp only [Bool.and_eq_true, Bool.not_eq_true', List.isEmpty_eq_false_iff,
      List.all_eq_true] at hbare
    exact .inl ⟨rfl, hbare.1, hbare.2⟩
  · exact .inr rfl

theorem exists_write_eq (key : String) : ∃ c rest, write key = c :: rest ∧ opens c = true := by
  obtain ⟨hwrite, hne, hbare⟩ | hwrite := write_cases key
  · obtain ⟨c, rest, heq⟩ := List.exists_cons_of_ne_nil hne
    have hc := hbare c (heq ▸ List.mem_cons_self)
    exact ⟨c, rest, hwrite.trans heq, by simp [opens, hc]⟩
  · obtain hform | hform := formOf_cases key.toList <;> rw [hwrite, hform]
    · exact ⟨'"', _, rfl, rfl⟩
    · exact ⟨'\'', _, rfl, rfl⟩

theorem read_bare {key : List Char} (hne : key ≠ []) (hbare : ∀ c ∈ key, isBare c = true)
    (hc : isBare c = false) : read (key ++ c :: rest) = some (String.ofList key, c :: rest) := by
  have htake : (key ++ c :: rest).takeWhile isBare = key := by
    rw [List.takeWhile_append_of_pos hbare, List.takeWhile_cons_of_neg (by simp [hc]),
      List.append_nil]
  have hdrop : (key ++ c :: rest).dropWhile isBare = c :: rest := by
    rw [List.dropWhile_append_of_pos hbare, List.dropWhile_cons_of_neg (by simp [hc])]
  have hquote {q : Char} (hq : isBare q = false) {more : List Char} :
      key ++ c :: rest ≠ q :: more := by
    obtain ⟨k, ks, rfl⟩ := List.exists_cons_of_ne_nil hne
    intro heq
    have hk := hbare k List.mem_cons_self
    rw [(List.cons.inj heq).1, hq] at hk
    cases hk
  unfold read
  split
  · exact absurd ‹_› (hquote (by decide))
  · exact absurd ‹_› (hquote (by decide))
  · simp [htake, hdrop]

theorem read_quote {form : Text.Form} (hform : form = .basic ∨ form = .literal) (s : List Char) :
    read (form.quote :: s) =
      (Text.body form .between s).map fun (k, rest) => (String.ofList k, rest) := by
  obtain rfl | rfl := hform <;> rfl

/-- **Every key is read as it was written**, before a character that belongs to no key. -/
theorem read_write (key : String) (hc : opens c = false) :
    read (write key ++ c :: rest) = some (key, c :: rest) := by
  have hends : isBare c = false ∧ c ≠ '"' ∧ c ≠ '\'' := by
    simpa [opens, and_assoc] using hc
  obtain ⟨hwrite, hne, hbare⟩ | hwrite := write_cases key
  · rw [hwrite, read_bare hne hbare hends.1, String.ofList_toList]
  · have hform := formOf_cases key.toList
    have hsingle : (formOf key.toList).tripled = false := by
      obtain hf | hf := hform <;> rw [hf] <;> rfl
    have hrest : (c :: rest).head? ≠ some (formOf key.toList).quote := by
      obtain hf | hf := hform <;> rw [hf, List.head?_cons, ne_eq, Option.some_inj]
      · exact hends.2.1
      · exact hends.2.2
    rw [hwrite, Text.enclose_of_single hsingle, read_quote hform,
      (written_contentIn key.toList).body_eq hrest, Option.map_some]
    simp only [String.ofList_toList]

theorem isBlank_of_opens (hc : opens c = true) : isBlank c = false := by
  have hspace : c ≠ ' ' := ne_of_opens hc (by decide)
  have htab : c ≠ '\t' := ne_of_opens hc (by decide)
  simp [isBlank, hspace, htab]

theorem skipBlanks_of_opens (hc : opens c = true) : skipBlanks (c :: rest) = c :: rest := by
  rw [skipBlanks, List.dropWhile_cons_of_neg (by simp [isBlank_of_opens hc])]

/-- A line that begins like a key is not empty. -/
theorem lineEnd?_of_opens (hc : opens c = true) : lineEnd? (c :: rest) = none := by
  have hsharp : c ≠ '#' := ne_of_opens hc (by decide)
  have hnewline : c ≠ '\n' := ne_of_opens hc (by decide)
  have hreturn : c ≠ '\r' := ne_of_opens hc (by decide)
  simp [lineEnd?, skipBlanks_of_opens hc, skipComment, newline?, hsharp, hnewline, hreturn]

/-- A key alone, with what follows it after blanks. -/
theorem readDotted_write (limit : Nat) (key : String) (hc : opens c = false)
    (hdot : (skipBlanks (c :: rest)).head? ≠ some '.') :
    readDotted (limit + 1) (write key ++ c :: rest) = some (([], key), skipBlanks (c :: rest)) := by
  have hkey : read (write key ++ c :: rest) = some (key, c :: rest) := read_write key hc
  obtain ⟨k, ks, hwrite, hopens⟩ := exists_write_eq key
  rw [hwrite, List.cons_append] at hkey ⊢
  rw [readDotted, skipBlanks_of_opens hopens, hkey]
  simp only
  split
  · rename_i more heq
    exact absurd (congrArg List.head? heq) hdot
  · rfl

end Key

/-! ## Values and statements -/

/-- **A text is read as the value that it was written as**, before anything but a quote. -/
theorem Value.read_write {c : Char} (depth : Nat) (text : String) (rest : List Char)
    (hc : c ≠ '"') (hc' : c ≠ '\'') :
    Value.read depth (Text.write text.toList ++ c :: rest) = some (.text text, c :: rest) := by
  have hread : Text.read (Text.write text.toList ++ c :: rest) = some (text.toList, c :: rest) :=
    Text.read_write text.toList (by simpa using hc) (by simpa using hc')
  obtain ⟨q, more, hwrite, rfl | rfl⟩ := Text.exists_write_eq text.toList
  all_goals
    rw [hwrite, List.cons_append] at hread ⊢
    cases depth <;> simp [Value.read, Value.readSimple, hread]

section Items

variable {value : List Char → Read ConfigValue} {s item after rest : List Char}
  {v : ConfigValue} {vs : List ConfigValue} {bound : Nat}

theorem Value.readItems_last (hs : skipFiller false s = item) (hitem : item.head? ≠ some ']')
    (hvalue : value item = some (v, ']' :: rest)) :
    Value.readItems value (bound + 1) s = some ([v], rest) := by
  have hbracket : skipFiller false (']' :: rest) = ']' :: rest := rfl
  rw [Value.readItems, hs]
  split
  · exact absurd rfl hitem
  · simp only [hvalue, hbracket]

theorem Value.readItems_more (hs : skipFiller false s = item) (hitem : item.head? ≠ some ']')
    (hvalue : value item = some (v, ',' :: after))
    (hafter : Value.readItems value bound after = some (vs, rest)) :
    Value.readItems value (bound + 1) s = some (v :: vs, rest) := by
  have hcomma : skipFiller false (',' :: after) = ',' :: after := rfl
  rw [Value.readItems, hs]
  split
  · exact absurd rfl hitem
  · simp only [hvalue, hcomma, hafter, Option.map_some]

theorem Value.read_array (h : Value.readItems (Value.read 78) (s.length + 1) s = some (vs, rest)) :
    Value.read Value.maxDepth ('[' :: s) = some (.list vs, rest) := by
  show Value.readArray (Value.read 78) s = _
  rw [Value.readArray, h]
  rfl

end Items

theorem readPair_write {value : List Char → Read ConfigValue} {text rest : List Char}
    {v : ConfigValue} (key : String) (hvalue : value text = some (v, rest))
    (hblank : skipBlanks text = text) :
    readPair value (Key.write key ++ (" = ".toList ++ text)) = some ((⟨[], key⟩, v), rest) := by
  have hkey : Key.readDotted Key.limit (Key.write key ++ ' ' :: '=' :: ' ' :: text) =
      some (([], key), '=' :: ' ' :: text) :=
    Key.readDotted_write 78 key (by decide) fun h => by cases h
  have hskip : skipBlanks (' ' :: text) = text := hblank
  have hequals : " = ".toList ++ text = ' ' :: '=' :: ' ' :: text := rfl
  rw [readPair, hequals, hkey]
  simp only [hskip, hvalue, Option.map_some]

/-- A line with a key and a value. -/
theorem Statement.read_pair {text rest : List Char} {v : ConfigValue} (key : String)
    (hvalue : Value.read Value.maxDepth text = some (v, rest)) (hblank : skipBlanks text = text) :
    Statement.read (Key.write key ++ (" = ".toList ++ text)) = some (.pair ⟨[], key⟩ v, rest) := by
  have hpair := readPair_write key hvalue hblank
  obtain ⟨k, ks, hwrite, hopens⟩ := Key.exists_write_eq key
  have hbracket : k ≠ '[' := Key.ne_of_opens hopens (by decide)
  rw [hwrite, List.cons_append] at hpair ⊢
  unfold Statement.read
  split
  · rename_i heq
    exact absurd (List.cons.inj heq).1 hbracket
  · rename_i heq
    exact absurd (List.cons.inj heq).1 hbracket
  · rw [hpair]
    rfl

/-- A line with the header of a table. -/
theorem Statement.read_header (key : String) (rest : List Char) :
    Statement.read ('[' :: (Key.write key ++ ']' :: rest)) = some (.table ⟨[], key⟩, rest) := by
  have hkey : Key.readDotted Key.limit (Key.write key ++ ']' :: rest) =
      some (([], key), ']' :: rest) :=
    Key.readDotted_write 78 key (by decide) fun h => by cases h
  obtain ⟨k, ks, hwrite, hopens⟩ := Key.exists_write_eq key
  have hbracket : k ≠ '[' := Key.ne_of_opens hopens (by decide)
  rw [hwrite, List.cons_append] at hkey ⊢
  unfold Statement.read
  split
  · rename_i heq
    exact absurd (List.cons.inj (List.cons.inj heq).2).1 hbracket
  · rename_i heq
    rw [← (List.cons.inj heq).2, Statement.readHeader, hkey]
    rfl
  · rename_i h
    exact absurd rfl (h _)

/-! ## Documents -/

namespace Document

/-- A text is read as statements, however many are looked for as long as they suffice. -/
def ReadsAs (text : List Char) (statements : List Statement) : Prop :=
  ∀ bound, text.length < bound → readStatements bound text = some statements

variable {c : Char} {s text rest : List Char} {statement : Statement}
  {statements : List Statement} {v : ConfigValue}

theorem lineEnd?_newline (rest : List Char) : lineEnd? ('\n' :: rest) = some rest := rfl

namespace ReadsAs

theorem nil : ReadsAs [] [] := by
  intro bound hbound
  cases bound with
  | zero => omega
  | succ bound => rfl

/-- A line that says nothing. -/
theorem empty_line (h : ReadsAs rest statements) : ReadsAs ('\n' :: rest) statements := by
  intro bound hbound
  cases bound with
  | zero => omega
  | succ bound =>
    rw [List.length_cons] at hbound
    simp only [readStatements, lineEnd?_newline]
    exact h bound (by omega)

/-- A line with a statement. -/
theorem line (hopens : lineEnd? (c :: s) = none) (hblank : skipBlanks (c :: s) = c :: s)
    (hread : Statement.read (c :: s) = some (statement, '\n' :: rest))
    (hshorter : rest.length ≤ s.length) (h : ReadsAs rest statements) :
    ReadsAs (c :: s) (statement :: statements) := by
  intro bound hbound
  cases bound with
  | zero => omega
  | succ bound =>
    rw [List.length_cons] at hbound
    simp only [readStatements, hopens, hblank, hread, lineEnd?_newline]
    rw [h bound (by omega)]
    rfl

/-- A line with a key and a value. -/
theorem pair {value : List Char} (key : String)
    (hvalue : Value.read Value.maxDepth (value ++ '\n' :: rest) = some (v, '\n' :: rest))
    (hblank : skipBlanks (value ++ '\n' :: rest) = value ++ '\n' :: rest)
    (h : ReadsAs rest statements) :
    ReadsAs (Key.write key ++ (" = ".toList ++ (value ++ '\n' :: rest)))
      (.pair ⟨[], key⟩ v :: statements) := by
  have hread := Statement.read_pair key hvalue hblank
  obtain ⟨k, ks, hwrite, hopens⟩ := Key.exists_write_eq key
  rw [hwrite, List.cons_append] at hread ⊢
  refine line (Key.lineEnd?_of_opens hopens) (Key.skipBlanks_of_opens hopens) hread ?_ h
  simp only [List.length_append, List.length_cons]
  omega

/-- A line with the header of a table. -/
theorem header (key : String) (h : ReadsAs rest statements) :
    ReadsAs ('[' :: (Key.write key ++ ']' :: '\n' :: rest)) (.table ⟨[], key⟩ :: statements) := by
  refine line rfl rfl (Statement.read_header key ('\n' :: rest)) ?_ h
  simp only [List.length_append, List.length_cons]
  omega

end ReadsAs

/-! ### Tables of distinct keys -/

/-- The statement of a key and a value. -/
def pairOf (entry : String × ConfigValue) : Statement := .pair ⟨[], entry.1⟩ entry.2

/-- The item of a key and a value. -/
def itemOf (entry : String × ConfigValue) : String × Item := (entry.1, .value entry.2)

variable {entries inner : List (String × ConfigValue)} {title : String}

theorem sections_pairs (entries : List (String × ConfigValue)) (rest : List Statement) :
    sections (entries.map pairOf ++ rest) =
      (entries.map (fun e => (⟨[], e.1⟩, e.2)) ++ (sections rest).1, (sections rest).2) := by
  induction entries with
  | nil => rfl
  | cons e entries ih =>
    rw [List.map_cons, List.cons_append, pairOf, sections, ih]
    rfl

theorem item?_eq_none {items : Entries} {key : String} (h : key ∉ items.map (·.1)) :
    Entries.item? items key = none := by
  rw [Entries.item?, Option.map_eq_none_iff, List.find?_eq_none]
  intro item hitem heq
  exact h (List.mem_map.mpr ⟨item, hitem, by simpa using heq⟩)

theorem assignAll_cons (items : Entries) (address : Address) (v : ConfigValue)
    (pairs : List (Address × ConfigValue)) :
    Entries.assignAll items ((address, v) :: pairs) =
      (Entries.assign items address v).bind (Entries.assignAll · pairs) := rfl

/-- Distinct keys can all be given their values. -/
theorem assignAll_eq {items : Entries} (hdistinct : (items.map (·.1) ++ entries.map (·.1)).Nodup) :
    Entries.assignAll items (entries.map fun e => (⟨[], e.1⟩, e.2)) =
      some (items ++ entries.map itemOf) := by
  induction entries generalizing items with
  | nil => simp [Entries.assignAll]
  | cons e entries ih =>
    have hnew : e.1 ∉ items.map (·.1) := fun hmem =>
      (List.nodup_append.mp hdistinct).2.2 e.1 hmem e.1 List.mem_cons_self rfl
    have hassign : Entries.assign items ⟨[], e.1⟩ e.2 = some (items ++ [itemOf e]) := by
      simp [Entries.assign, Entries.alter, item?_eq_none hnew, itemOf]
    rw [List.map_cons, assignAll_cons, hassign, Option.bind_some,
      ih (by simpa [itemOf] using hdistinct), List.append_assoc]
    rfl

theorem openTable_eq {items : Entries} (hnew : title ∉ items.map (·.1))
    (hinner : (inner.map (·.1)).Nodup) :
    Entries.openTable items ⟨[], title⟩ (inner.map fun e => (⟨[], e.1⟩, e.2)) =
      some (items ++ [(title, .table .header (inner.map itemOf))]) := by
  have hfill : Entries.assignAll [] (inner.map fun e => (⟨[], e.1⟩, e.2)) =
      some ([] ++ inner.map itemOf) := assignAll_eq (by simpa using hinner)
  have hremove : Entries.remove items title = items := by
    rw [Entries.remove, List.filter_eq_self]
    intro item hitem
    refine decide_eq_true fun heq => hnew (List.mem_map.mpr ⟨item, hitem, heq⟩)
  simp [Entries.openTable, Entries.alter, item?_eq_none hnew, hfill, hremove]

theorem toPairs_append (items more : Entries) :
    Item.toPairs (items ++ more) = Item.toPairs items ++ Item.toPairs more := by
  induction items with
  | nil => rfl
  | cons e items ih =>
    rw [List.cons_append, Item.toPairs, Item.toPairs, ih]
    rfl

theorem toPairs_items (entries : List (String × ConfigValue)) :
    Item.toPairs (entries.map itemOf) = entries := by
  induction entries with
  | nil => rfl
  | cons e entries ih =>
    rw [List.map_cons, Item.toPairs, ih]
    rfl

/-- **The data of a document** of pairs and a table after them, where no key stands twice. -/
theorem read_eq (hmark : text.head? ≠ some '\ufeff')
    (hreads : ReadsAs text (entries.map pairOf ++ .table ⟨[], title⟩ :: inner.map pairOf))
    (hentries : (entries.map (·.1) ++ [title]).Nodup) (hinner : (inner.map (·.1)).Nodup) :
    Document.read text = some (.record (entries ++ [(title, .record inner)])) := by
  have htext : dropMark text = text := by
    unfold dropMark
    split
    · exact absurd rfl hmark
    · rfl
  have hsections : sections (entries.map pairOf ++ .table ⟨[], title⟩ :: inner.map pairOf) =
      (entries.map (fun e => (⟨[], e.1⟩, e.2)),
        [(false, ⟨[], title⟩, inner.map fun e => (⟨[], e.1⟩, e.2))]) := by
    have hlast := sections_pairs inner []
    rw [List.append_nil] at hlast
    rw [sections_pairs, sections, hlast]
    simp [sections]
  have hassign : Entries.assignAll [] (entries.map fun e => (⟨[], e.1⟩, e.2)) =
      some ([] ++ entries.map itemOf) :=
    assignAll_eq (by simpa using (List.nodup_append.mp hentries).1)
  have hnew : title ∉ (entries.map itemOf).map (·.1) := by
    intro hmem
    rw [List.map_map] at hmem
    exact (List.nodup_append.mp hentries).2.2 title hmem title (List.mem_singleton_self title) rfl
  have hentries : entries? (entries.map pairOf ++ .table ⟨[], title⟩ :: inner.map pairOf) =
      some (entries.map itemOf ++ [(title, .table .header (inner.map itemOf))]) := by
    rw [entries?, hsections]
    simp [hassign, openTable_eq hnew hinner]
  have hvalue : Item.toPairs (entries.map itemOf ++ [(title, .table .header (inner.map itemOf))]) =
      entries ++ [(title, .record inner)] := by
    rw [toPairs_append, toPairs_items, Item.toPairs, Item.toPair, Item.toValue, toPairs_items]
    rfl
  simp only [Document.read, htext, hreads _ (Nat.lt_succ_self _), Option.bind_eq_bind,
    Option.bind_some, hentries, Item.toValue, hvalue]
  rfl

end Document

end ScopeLint.Toml
