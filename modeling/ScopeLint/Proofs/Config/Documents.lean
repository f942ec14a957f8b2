import ScopeLint.Config.File
import ScopeLint.Proofs.Toml.Document

/-! # Documents that keep their data

What is asked of the format of documents is that data are read as they were written
(`DocumentFormat.Faithful`): plain values by any keys, and behind them a table of texts, which
may be empty.

TOML documents are faithful (`DocumentFormat.toml_faithful`).  Each line that is written gives
one key, and no key stands twice.
-/

namespace ScopeLint

/-- A text or a list of texts. -/
inductive ConfigValue.IsPlain : ConfigValue → Prop
  | text (s : String) : IsPlain (.text s)
  | texts (texts : List String) : IsPlain (.list (texts.map .text))

/-- Named texts as data. -/
def ConfigValue.textEntries (texts : List (String × String)) : List (String × ConfigValue) :=
  texts.map fun e => (e.1, .text e.2)

/-- **What is asked of a format**: plain values, and behind them a table of texts, have a
document, and they are read from it as they were.  Keys, texts and the lengths of lists may be
any; but no key stands twice. -/
def DocumentFormat.Faithful (format : DocumentFormat) : Prop :=
  ∀ (values : List (String × ConfigValue)) (title : String) (texts : List (String × String)),
    (∀ e ∈ values, e.2.IsPlain) → (values.map (·.1) ++ [title]).Nodup →
    (texts.map (·.1)).Nodup →
      let data : ConfigValue :=
        .record (values ++ [(title, .record (ConfigValue.textEntries texts))])
      ∃ text, format.write data = some text ∧ format.read text = some data

namespace Toml

open Document

variable {rest lines : List Char} {statements : List Statement}
  {values : List (String × ConfigValue)} {v : ConfigValue}

/-! ### Lines of values -/

theorem writeLine_append (key : String) (value rest : List Char) :
    writeLine key value ++ rest =
      Key.write key ++ (" = ".toList ++ (value ++ '\n' :: rest)) := by
  simp [writeLine]

/-- The line of a text. -/
theorem readsAs_text (key s : String) (h : ReadsAs rest statements) :
    ReadsAs (writeLine key (Text.write s.toList) ++ rest)
      (pairOf (key, .text s) :: statements) := by
  have hread := Value.read_write Value.maxDepth s rest (c := '\n') (by decide) (by decide)
  rw [writeLine_append]
  exact h.pair key hread (Text.skipFiller_write s.toList ('\n' :: rest)).1

/-- The lines of an array, each with a text. -/
def textLines (texts : List String) : List Char :=
  texts.flatMap fun s => "    ".toList ++ Text.write s.toList ++ [',', '\n']

theorem readItems_textLines {depth bound : Nat} {texts : List String}
    (hbound : (textLines texts ++ ']' :: rest).length < bound) :
    Value.readItems (Value.read depth) bound ('\n' :: (textLines texts ++ ']' :: rest)) =
      some (texts.map .text, rest) := by
  induction texts generalizing bound with
  | nil =>
    cases bound with
    | zero => omega
    | succ bound => rfl
  | cons s texts ih =>
    have hlines : textLines (s :: texts) ++ ']' :: rest = "    ".toList ++
        (Text.write s.toList ++ ',' :: '\n' :: (textLines texts ++ ']' :: rest)) := by
      simp [textLines]
    rw [hlines] at hbound ⊢
    generalize textLines texts ++ ']' :: rest = after at ih hbound ⊢
    cases bound with
    | zero => omega
    | succ bound =>
      rw [List.length_append, List.length_append, List.length_cons, List.length_cons] at hbound
      have hindent {text : List Char} :
          skipFiller false ('\n' :: ("    ".toList ++ text)) = skipFiller false text := rfl
      have hskip := hindent.trans (Text.skipFiller_write s.toList (',' :: '\n' :: after)).2
      exact Value.readItems_more hskip (Text.head?_write_ne _ _ (by decide) (by decide))
        (Value.read_write depth s _ (by decide) (by decide)) (ih (by omega))

theorem read_writeTexts (texts : List String) (rest : List Char) :
    Value.read Value.maxDepth (writeTexts texts ++ rest) =
      some (.list (texts.map .text), rest) := by
  match texts with
  | [] => rfl
  | [s] =>
    have htexts : writeTexts [s] ++ rest = '[' :: (Text.write s.toList ++ ']' :: rest) := by
      simp [writeTexts]
    have hskip := (Text.skipFiller_write s.toList (']' :: rest)).2
    rw [htexts]
    exact Value.read_array (Value.readItems_last hskip
      (Text.head?_write_ne _ _ (by decide) (by decide))
      (Value.read_write 78 s rest (by decide) (by decide)))
  | s :: t :: texts =>
    have htexts : writeTexts (s :: t :: texts) ++ rest =
        '[' :: '\n' :: (textLines (s :: t :: texts) ++ ']' :: rest) := by
      simp [writeTexts, textLines]
    rw [htexts]
    exact Value.read_array (readItems_textLines (by rw [List.length_cons]; omega))

/-- The line of a list of texts, or its lines. -/
theorem readsAs_texts (key : String) (texts : List String) (h : ReadsAs rest statements) :
    ReadsAs (writeLine key (writeTexts texts) ++ rest)
      (pairOf (key, .list (texts.map .text)) :: statements) := by
  have hblank : skipBlanks (writeTexts texts ++ '\n' :: rest) =
      writeTexts texts ++ '\n' :: rest := by
    match texts with
    | [] | [_] | _ :: _ :: _ => rfl
  rw [writeLine_append]
  exact h.pair key (read_writeTexts texts ('\n' :: rest)) hblank

theorem mapM_text? (texts : List String) :
    (texts.map ConfigValue.text).mapM ConfigValue.text? = some texts := by
  induction texts with
  | nil => rfl
  | cons s texts ih => simp [ConfigValue.text?, ih]

/-- A plain value can be written, and its line is read as its key and itself. -/
theorem exists_writeValue? (hv : v.IsPlain) : ∃ text, writeValue? v = some text ∧
    ∀ (key : String) {rest : List Char} {statements : List Statement}, ReadsAs rest statements →
      ReadsAs (writeLine key text ++ rest) (pairOf (key, v) :: statements) := by
  cases hv with
  | text s => exact ⟨_, rfl, fun key _ _ h => readsAs_text key s h⟩
  | texts texts =>
    refine ⟨writeTexts texts, ?_, fun key _ _ h => readsAs_texts key texts h⟩
    rw [writeValue?, mapM_text?, Option.map_some]

/-- Plain values can be written, and their lines are read as what they are. -/
theorem exists_writeLines? (hvalues : ∀ e ∈ values, e.2.IsPlain) :
    ∃ lines, writeLines? values = some lines ∧
      ∀ {rest : List Char} {statements : List Statement}, ReadsAs rest statements →
        ReadsAs (lines ++ rest) (values.map pairOf ++ statements) := by
  induction values with
  | nil => exact ⟨[], rfl, fun h => h⟩
  | cons e values ih =>
    obtain ⟨he, hrest⟩ := List.forall_mem_cons.mp hvalues
    obtain ⟨text, htext, hline⟩ := exists_writeValue? he
    obtain ⟨lines, hlines, hreads⟩ := ih hrest
    refine ⟨writeLine e.1 text ++ lines, by simp [writeLines?, htext, hlines], fun h => ?_⟩
    rw [List.append_assoc]
    exact hline e.1 (hreads h)

/-- Lines of keys do not begin with a byte order mark. -/
theorem head?_writeLines?_ne (h : writeLines? values = some lines)
    (hrest : rest.head? ≠ some '\ufeff') :
    (lines ++ rest).head? ≠ some '\ufeff' := by
  cases values with
  | nil =>
    cases h
    exact hrest
  | cons e values =>
    simp only [writeLines?, Option.bind_eq_bind, Option.pure_def, Option.bind_eq_some_iff,
      Option.some.injEq] at h
    obtain ⟨text, _, more, _, rfl⟩ := h
    obtain ⟨c, key, hkey, hopens⟩ := Key.exists_write_eq e.1
    have hc : c ≠ '\ufeff' := Key.ne_of_opens hopens (by decide)
    simpa [writeLine, hkey] using hc

/-! ### Documents -/

theorem isPlain_of_mem_textEntries (texts : List (String × String)) :
    ∀ e ∈ ConfigValue.textEntries texts, e.2.IsPlain := by
  intro e he
  obtain ⟨_, _, rfl⟩ := List.mem_map.mp he
  exact .text _

end Toml

theorem ConfigValue.IsPlain.isRecord {v : ConfigValue} (h : v.IsPlain) : v.isRecord = false := by
  cases h <;> rfl

open Toml Toml.Document in
/-- **TOML documents keep what is written in them.** -/
theorem DocumentFormat.toml_faithful : DocumentFormat.toml.Faithful := by
  intro values title texts hvalues hkeys htexts data
  obtain ⟨lines, hlines, hreads⟩ := exists_writeLines? hvalues
  obtain ⟨inner, hinner, hreadsInner⟩ :=
    exists_writeLines? (isPlain_of_mem_textEntries texts)
  have hplain : ∀ e ∈ values, (!e.2.isRecord) = true := fun e he => by
    rw [(hvalues e he).isRecord]
    rfl
  let titled : String × ConfigValue := (title, .record (ConfigValue.textEntries texts))
  have hlines' : (values ++ [titled]).filter (!·.2.isRecord) = values := by
    rw [List.filter_append, List.filter_eq_self.mpr hplain]
    exact List.append_nil _
  have htables : (values ++ [titled]).filter (·.2.isRecord) = [titled] := by
    rw [List.filter_append, List.filter_eq_nil_iff.mpr (by simpa using hplain)]
    rfl
  let table := '\n' :: '[' :: (Key.write title ++ ']' :: '\n' :: inner)
  have hwrite : write? data = some (lines ++ table) := by
    show write? (.record (values ++ [titled])) = _
    simp [write?, hlines', htables, hlines, titled, writeTables?, hinner, table]
  have hall : ReadsAs (lines ++ table)
      (values.map pairOf ++ .table ⟨[], title⟩ :: (ConfigValue.textEntries texts).map pairOf) := by
    have hlast := hreadsInner .nil
    rw [List.append_nil, List.append_nil] at hlast
    exact hreads (hlast.header title).empty_line
  have hnames : ((ConfigValue.textEntries texts).map (·.1)).Nodup := by
    rw [ConfigValue.textEntries, List.map_map]
    exact htexts
  refine ⟨String.ofList (lines ++ table), by simp [toml, hwrite], ?_⟩
  have hmark : table.head? ≠ some '\ufeff' := by simp [table]
  have hread := Document.read_eq (head?_writeLines?_ne hlines hmark) hall hkeys hnames
  simpa [toml, data] using hread

end ScopeLint
