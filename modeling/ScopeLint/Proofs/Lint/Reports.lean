import ScopeLint.Proofs.Outline.Mentions
import ScopeLint.Proofs.Outline.Within
import ScopeLint.Proofs.Syntax.Respelling

/-! # Where reports are

A report of the rule is of a mention whose text is the word, and a mention is a node
of the tree.  When the parser's points are those of the offsets, so are the positions
of reports (`start_of_report`), and a report at a later offset is at a later line, or
at a later column on the same line (`position_lt`).
-/

namespace ScopeLint

open Syntax (Identifier Program Grammar SourceType)

namespace NoUndefined

theorem mention_of_report {program : Program} {x : Identifier}
    (hx : x ∈ (rule.check (analyze program)).map (·.node)) :
    x ∈ program.mentions ∧ x.name = word := by
  obtain ⟨hmem, hname⟩ := List.mem_filter.mp ((reports_perm program).mem_iff.mp hx)
  exact ⟨hmem, of_decide_eq_true hname⟩

/-- A report is of a node of the tree whose text is the word. -/
theorem label_of_report {program : Program} {x : Identifier}
    (hx : x ∈ (rule.check (analyze program)).map (·.node)) :
    ∃ l ∈ program.root.labels, x = .ofLabel program.source l ∧
      program.source.textOf l.span = word.toList := by
  have hx := (reports_perm_outline program).mem_iff.mp hx
  obtain ⟨hmem, hname⟩ := List.mem_filter.mp hx
  obtain ⟨l, hl, rfl⟩ := List.mem_map.mp hmem
  refine ⟨l, mem_labels_of_mention hl, rfl, ?_⟩
  have htext : String.ofList (program.source.textOf l.span) = word := of_decide_eq_true hname
  rw [← htext, String.toList_ofList]

theorem word_ne_nil : word.toList ≠ [] := by decide

end NoUndefined

section Order

variable {grammar : Grammar} {text : String} {program : Program}

/-- The position of a report is that of its offset. -/
theorem start_of_report (hgrammar : grammar.Pointed) (hsource : program.source = Source.ofText text)
    (htree : program.root = Program.treeOf grammar text) {x : Identifier}
    (hx : x ∈ (NoUndefined.rule.check (analyze program)).map (·.node)) :
    x.start = program.source.positionOf x.span.start (program.source.pointAt x.span.start) := by
  obtain ⟨l, hl, rfl, _⟩ := NoUndefined.label_of_report hx
  have hpoint : l.start = program.source.pointAt l.span.start := by
    rw [hsource]
    exact Program.treeOf_pointed hgrammar text l (htree ▸ hl)
  show program.source.positionOf l.span.start l.start = _
  rw [hpoint]
  rfl

/-- A report at a later offset is told later. -/
theorem position_lt (hgrammar : grammar.Pointed) (hsource : program.source = Source.ofText text)
    (htree : program.root = Program.treeOf grammar text) {x y : Identifier}
    (hx : x ∈ (NoUndefined.rule.check (analyze program)).map (·.node))
    (hy : y ∈ (NoUndefined.rule.check (analyze program)).map (·.node))
    (hlt : x.span.start < y.span.start) :
    x.start.line < y.start.line ∨
      x.start.line = y.start.line ∧ x.start.column < y.start.column := by
  rw [start_of_report hgrammar hsource htree hx, start_of_report hgrammar hsource htree hy]
  obtain ⟨l, _, rfl, htext⟩ := NoUndefined.label_of_report hx
  obtain ⟨m, _, rfl, htext'⟩ := NoUndefined.label_of_report hy
  obtain ⟨_, b, hb, hstart⟩ := Source.start_of_textOf (htext ▸ NoUndefined.word_ne_nil)
  obtain ⟨hlength, _⟩ := Source.start_of_textOf (htext' ▸ NoUndefined.word_ne_nil)
  exact Source.positionOf_lt hlt hlength hb hstart

end Order

end ScopeLint
