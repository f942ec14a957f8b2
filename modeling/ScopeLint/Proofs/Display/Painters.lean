import Mathlib.Data.List.Basic
import ScopeLint.Display.Style

/-! # Painters

A painter is lawful if it leaves a text in a style without attributes alone, and puts style
sequences before and behind every other (`Painter.Lawful`).  The sequences depend on the
style, not on the text, and one stands behind the text even where the text is empty.
Leaving the sequences out of what a lawful painter paints gives the text back
(`Painter.Lawful.eraseFrom_paint`).  The painter that sends codes is lawful
(`Painter.terminal_lawful`).
-/

namespace ScopeLint

/-- A digit is the only character in the writing of a number. -/
theorem not_mem_toString {c : Char} (h : c.isDigit = false) (n : Nat) :
    c ∉ (toString n).toList := by
  rw [Nat.toString_eq_repr, Nat.toList_repr]
  intro hmem
  rw [Nat.isDigit_of_mem_toDigits (by decide) (by decide) hmem] at h
  cases h

namespace Painter

/-- **Style sequences**, one behind another: each is an escape and a bracket, some codes and
an `m`. -/
inductive Escapes : List Char → Prop
  | none : Escapes []
  | more {codes rest : List Char} (hcodes : 'm' ∉ codes) (hrest : Escapes rest) :
      Escapes ('\x1b' :: '[' :: (codes ++ 'm' :: rest))

/-- **What is asked of a painter.**  A style without attributes says nothing.  Any other is
turned on before a text and off behind it, by style sequences that do not depend on the
text. -/
structure Lawful (painter : Painter) : Prop where
  paint_plain : ∀ text, painter.paint ⟨[]⟩ text = text
  paint_styled : ∀ style : Style, style.attributes ≠ [] → ∃ before behind, Escapes before ∧
    Escapes behind ∧ behind ≠ [] ∧ ∀ text, painter.paint style text = before ++ text ++ behind

/-! ### Leaving out escapes -/

/-- A text without its escapes: each is left out from its opening to the next `m`.  `inside`
tells whether the text begins inside an escape. -/
def eraseFrom (inside : Bool) : List Char → List Char
  | [] => []
  | c :: rest =>
    if inside then eraseFrom (c != 'm') rest
    else if c = '\x1b' ∧ rest.head? = some '[' then eraseFrom true rest
    else c :: eraseFrom false rest

/-- A text without its escapes. -/
def erase (text : String) : String := String.ofList (eraseFrom false text.toList)

theorem eraseFrom_text {text : List Char} (h : '\x1b' ∉ text) (rest : List Char) :
    eraseFrom false (text ++ rest) = text ++ eraseFrom false rest := by
  induction text with
  | nil => rfl
  | cons c text ih =>
    obtain ⟨hc, htext⟩ := List.ne_and_not_mem_of_not_mem_cons h
    rw [List.cons_append, eraseFrom, if_neg Bool.false_ne_true, if_neg fun h => hc h.1.symm,
      ih htext, List.cons_append]

theorem eraseFrom_codes {codes : List Char} (h : 'm' ∉ codes) (rest : List Char) :
    eraseFrom true (codes ++ 'm' :: rest) = eraseFrom false rest := by
  induction codes with
  | nil => rfl
  | cons c codes ih =>
    obtain ⟨hc, hcodes⟩ := List.ne_and_not_mem_of_not_mem_cons h
    rw [List.cons_append, eraseFrom, if_pos rfl, bne_iff_ne.mpr (Ne.symm hc), ih hcodes]

namespace Escapes

variable {escapes : List Char}

theorem eraseFrom (h : Escapes escapes) (rest : List Char) :
    eraseFrom false (escapes ++ rest) = Painter.eraseFrom false rest := by
  induction h with
  | none => rfl
  | @more codes escapes hcodes _ ih =>
    have hmore : '\x1b' :: '[' :: (codes ++ 'm' :: escapes) ++ rest =
        '\x1b' :: '[' :: (codes ++ 'm' :: (escapes ++ rest)) := by simp
    rw [hmore, Painter.eraseFrom, if_neg Bool.false_ne_true, if_pos ⟨rfl, rfl⟩,
      Painter.eraseFrom, if_pos rfl]
    exact (eraseFrom_codes hcodes (escapes ++ rest)).trans ih

/-- Style sequences end in an `m`. -/
theorem exists_concat (h : Escapes escapes) (hne : escapes ≠ []) :
    ∃ front, escapes = front ++ ['m'] := by
  induction h with
  | none => exact absurd rfl hne
  | @more codes rest _ _ ih =>
    by_cases hrest : rest = []
    · subst hrest
      exact ⟨'\x1b' :: '[' :: codes, rfl⟩
    · obtain ⟨front, rfl⟩ := ih hrest
      exact ⟨'\x1b' :: '[' :: (codes ++ 'm' :: front), by simp⟩

end Escapes

namespace Lawful

variable {painter : Painter} {text : List Char}

/-- **What is painted is the text between escapes.** -/
theorem eraseFrom_paint (h : painter.Lawful) (style : Style) (htext : '\x1b' ∉ text)
    (rest : List Char) :
    eraseFrom false (painter.paint style text ++ rest) = text ++ eraseFrom false rest := by
  obtain ⟨attributes⟩ := style
  by_cases hstyle : attributes = []
  · subst hstyle
    rw [h.paint_plain, eraseFrom_text htext]
  · obtain ⟨before, behind, hbefore, hbehind, _, hpaint⟩ := h.paint_styled ⟨attributes⟩ hstyle
    rw [hpaint, List.append_assoc, List.append_assoc, hbefore.eraseFrom, eraseFrom_text htext,
      hbehind.eraseFrom]

theorem erase_paint (h : painter.Lawful) (style : Style) (htext : '\x1b' ∉ text) :
    erase (String.ofList (painter.paint style text)) = String.ofList text := by
  have herased := h.eraseFrom_paint style htext []
  rw [List.append_nil] at herased
  rw [erase, String.toList_ofList, herased, eraseFrom, List.append_nil]

/-- A text in a style with attributes ends in an escape. -/
theorem exists_paint_concat (h : painter.Lawful) {style : Style} (hstyle : style.attributes ≠ [])
    (text : List Char) : ∃ front, painter.paint style text = front ++ ['m'] := by
  obtain ⟨before, behind, _, hbehind, hne, hpaint⟩ := h.paint_styled style hstyle
  obtain ⟨front, rfl⟩ := hbehind.exists_concat hne
  exact ⟨before ++ text ++ front, by rw [hpaint, ← List.append_assoc]⟩

end Lawful

/-! ### The painter that sends codes -/

/-- The codes of a style are numbers and semicolons. -/
theorem not_mem_codes (codes : List Nat) : 'm' ∉ (";".intercalate (codes.map toString)).toList := by
  rw [String.toList_intercalate]
  induction codes with
  | nil => simp
  | cons code codes ih =>
    have hcode : 'm' ∉ (toString code).toList := not_mem_toString (by decide) code
    cases codes with
    | nil => simpa using hcode
    | cons next codes =>
      rw [List.map_cons, List.map_cons, List.map_cons, List.map_cons, List.intercalate_cons_cons]
      simp only [List.mem_append, not_or]
      exact ⟨⟨hcode, by decide⟩, ih⟩

theorem escapes_escape (codes : List Nat) : Escapes (escape codes) := by
  have hone := Escapes.more (not_mem_codes codes) .none
  simpa [escape] using hone

/-- **The painter that sends codes is lawful.** -/
theorem terminal_lawful : terminal.Lawful where
  paint_plain _ := rfl
  paint_styled style hstyle := by
    refine ⟨_, _, escapes_escape (style.attributes.map code), escapes_escape [0], ?_, ?_⟩
    · simp [escape]
    · intro text
      simp [terminal, hstyle]

end Painter

end ScopeLint
