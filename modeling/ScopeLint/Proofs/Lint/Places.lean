import ScopeLint.Proofs.Lint.Linter
import ScopeLint.Proofs.Lint.Reports
import ScopeLint.Proofs.Text.Written

/-! # Diagnostics point at the word

A report of the rule is of a node whose text is the word, and a text of a span cuts
the source between characters.  So the offsets of a diagnostic are those of the
word in the source, its line counts the line breaks before the word, and its column
the UTF-16 code units before the word on its line (`Diagnostic.PointsAt`).  Names
are read from the source itself and respelling moves nothing, so this is so as well
when the tree is that of the respelled text.
-/

namespace ScopeLint

open Syntax (Label Node Identifier Program Grammar SourceType)

namespace Diagnostic

/-- **A diagnostic points at a word of a text**: the word stands in the text at the
diagnostic's offsets, and the line and the column, counted from 1, are those of the
word. -/
def PointsAt (d : Diagnostic) (word text : String) : Prop :=
  ∃ before after, text.toList = before ++ word.toList ++ after ∧
    d.offset = (Utf8.encode before).length ∧
    d.stop = (Utf8.encode (before ++ word.toList)).length ∧
    d.line = before.count '\n' + 1 ∧
    d.column = Utf16.units (Source.lastLine before) + 1

theorem PointsAt.isInfix {d : Diagnostic} {word text : String} (h : d.PointsAt word text) :
    word.toList <:+: text.toList := by
  obtain ⟨before, after, htext, _⟩ := h
  exact ⟨before, after, htext.symm⟩

end Diagnostic

/-- A diagnostic of a report points at the word. -/
theorem NoUndefined.pointsAt_of_report {grammar : Grammar} (hgrammar : grammar.Pointed)
    {text : String} {sourceType : SourceType} {report : Report}
    (h : report ∈ rule.check
      (analyze ⟨Source.ofText text, Program.treeOf grammar text, sourceType⟩))
    (name : String) (severity : Severity) :
    (Diagnostic.ofReport name severity report).PointsAt word text := by
  have hmem := List.mem_map_of_mem (f := Report.node) h
  have hposition := start_of_report hgrammar rfl rfl hmem
  obtain ⟨l, _, hnode, htext⟩ := label_of_report hmem
  obtain ⟨before, after, hsplit, hstart, hstop⟩ :=
    Source.exists_split_of_textOf htext word_ne_nil
  -- The word is cut out of the text, so its position is told by the characters before it.
  have hplace : report.node.start = ⟨before.count '\n', Utf16.units (Source.lastLine before)⟩ := by
    have hcut := Source.positionOf_encode before (word.toList ++ after)
    rw [← List.append_assoc, ← hsplit, ← hstart] at hcut
    rw [hposition, hnode]
    exact hcut
  refine ⟨before, after, hsplit, ?_, ?_, ?_, ?_⟩
  · rw [Diagnostic.ofReport, hnode]
    exact hstart
  · rw [Diagnostic.ofReport, hnode]
    exact hstop
  · rw [Diagnostic.ofReport, hplace]
  · rw [Diagnostic.ofReport, hplace]

/-- **Every diagnostic of the rule points at the word in the text**, in a text with a
tree of its own as in one that was respelled; where the text does not hold the word,
there is none.  The parser's points are supposed to be those of the offsets. -/
theorem noUndefined_points {grammar : Grammar} (hgrammar : grammar.Pointed) (linter : Linter)
    (hrule : ∀ rule ∈ linter.registry, rule.name = NoUndefined.rule.name →
      rule = NoUndefined.rule)
    (text : String) (sourceType : SourceType) :
    (∀ d ∈ linter.verifyAs grammar text sourceType, d.fatal = false →
      d.rule = some NoUndefined.rule.name → d.PointsAt NoUndefined.word text) ∧
    (¬ NoUndefined.word.toList <:+: text.toList →
      ∀ d ∈ linter.verifyAs grammar text sourceType, d.fatal = false →
        d.rule ≠ some NoUndefined.rule.name) := by
  have hpoints : ∀ d ∈ linter.verifyAs grammar text sourceType,
      d.rule = some NoUndefined.rule.name → d.PointsAt NoUndefined.word text := by
    intro d hd hname
    obtain ⟨rule, hmem, hsame, report, hreport, rfl⟩ := Linter.exists_report hd hname
    rw [hrule rule hmem hsame] at hreport
    exact NoUndefined.pointsAt_of_report hgrammar hreport _ _
  constructor
  · intro d hd _ hname
    exact hpoints d hd hname
  · intro hnot d hd _ hname
    exact hnot (hpoints d hd hname).isInfix

/-! ### A word that is respelled -/

namespace RespelledName

/-- A program that the grammar refuses as it is. -/
def text : String := "\n/*😀*/ let undefined"

/-- The text that is read instead. -/
def respelled : String := "\n/*😀*/ let _ndefined"

/-- A node of its trees, on a line. -/
def label (id : Nat) (kind : Syntax.Kind) (line start stop : Nat) (hasError : Bool)
    (fields : List Syntax.Field) : Label :=
  { id, kind, span := ⟨start, stop⟩, start := ⟨line, start - line⟩, named := true,
    missing := false, hasError, fields }

/-- The tree of the text itself. -/
def refused : Node :=
  .node (label 0 (.other "program") 1 1 23 true [])
    [.node (label 1 .comment 1 1 9 false []) [], .node (label 2 .error 1 10 23 true []) []]

/-- The tree of the respelled text. -/
def root : Node :=
  .node (label 0 (.other "program") 1 1 23 false [])
    [.node (label 1 .comment 1 1 9 false []) [],
      .node (label 2 .lexicalDeclaration 1 10 23 false [])
        [.node (label 3 .variableDeclarator 1 14 23 false [])
          [.node (label 4 .identifier 1 14 23 false [.name]) []]]]

/-- A parser that knows these two texts. -/
def grammar : Grammar := fun source =>
  if source = text then refused
  else if source = respelled then root
  else .node (label 0 (.other "program") 0 0 0 false []) []

theorem grammar_pointed : grammar.Pointed := by
  intro source l hl
  unfold grammar at hl
  split at hl
  · subst_vars
    revert l
    decide +kernel
  · split at hl
    · subst_vars
      revert l
      decide +kernel
    · rw [List.mem_singleton.mp hl]
      rfl

theorem treeOf_text : Program.treeOf grammar text = root := by
  have hfirst : grammar text = refused := if_pos rfl
  have hsecond : grammar respelled = root := by
    rw [grammar, if_neg (by decide), if_pos rfl]
  have hstarts : Syntax.Respelling.starts refused (Source.ofText text) = [14] := by
    decide +kernel
  have hbytes : Syntax.Respelling.respell? (Source.ofText text) [14] =
      some (Source.ofText respelled) := by
    decide +kernel
  have htext : Utf8.decode? (Source.ofText respelled) = some respelled.toList := by
    decide +kernel
  have hreread : Program.reread? grammar (Source.ofText text) refused = some root := by
    unfold Program.reread?
    simp only [hstarts, hbytes, htext, String.ofList_toList, hsecond, Option.bind_eq_bind,
      Option.bind_some]
    rfl
  rw [Program.treeOf, hfirst, hreread]
  rfl

/-- What the linter tells of the text: line and column are counted in characters of the
text, and offsets in its octets. -/
def diagnostic : Diagnostic where
  rule := some "no-undefined"
  severity := .error
  message := NoUndefined.message
  line := 2
  column := 12
  offset := 14
  stop := 23
  nodeKind := some "identifier"
  fatal := false

theorem verifyAs_text :
    (⟨Settings.default, Registry.builtin⟩ : Linter).verifyAs grammar text .script =
      [diagnostic] := by
  have hprogram : Program.ofText grammar .script text =
      .ok ⟨Source.ofText text, root, .script⟩ := by
    rw [Program.ofText, treeOf_text]
    rfl
  have hreports : Linter.runRule Settings.default
      (analyze ⟨Source.ofText text, root, .script⟩) NoUndefined.rule = [diagnostic] := by
    decide +kernel
  rw [Linter.verifyAs, Linter.check_builtin, hprogram]
  show Diagnostic.sort (Linter.runRule _ _ NoUndefined.rule) = _
  rw [hreports, Diagnostic.sort, List.mergeSort_singleton]

end RespelledName

/-- In a respelled program the diagnostic points at the word as it stands in the text;
for a text without the word there is none. -/
theorem noUndefined_points_respelled :
    RespelledName.grammar.Pointed ∧
      (∀ rule ∈ Registry.builtin, rule.name = NoUndefined.rule.name → rule = NoUndefined.rule) ∧
      RespelledName.diagnostic ∈ (⟨Settings.default, Registry.builtin⟩ : Linter).verifyAs
        RespelledName.grammar RespelledName.text .script ∧
      RespelledName.diagnostic.PointsAt NoUndefined.word RespelledName.text ∧
      ¬ NoUndefined.word.toList <:+: "let x".toList ∧
      ∀ d ∈ (⟨Settings.default, Registry.builtin⟩ : Linter).verifyAs RespelledName.grammar
        "let x" .script, d.fatal = false → d.rule ≠ some NoUndefined.rule.name := by
  have hpointed := RespelledName.grammar_pointed
  have hbuiltin : ∀ rule ∈ Registry.builtin, rule.name = NoUndefined.rule.name →
      rule = NoUndefined.rule := fun rule hrule _ => List.mem_singleton.mp hrule
  have htold : RespelledName.diagnostic ∈ (⟨Settings.default, Registry.builtin⟩ : Linter).verifyAs
      RespelledName.grammar RespelledName.text .script := by
    rw [RespelledName.verifyAs_text]
    exact List.mem_singleton_self _
  have hpoints := (noUndefined_points hpointed ⟨Settings.default, Registry.builtin⟩ hbuiltin
    RespelledName.text .script).1 _ htold rfl rfl
  have habsent : ¬ NoUndefined.word.toList <:+: "let x".toList := by decide
  exact ⟨hpointed, hbuiltin, htold, hpoints, habsent,
    (noUndefined_points hpointed ⟨Settings.default, Registry.builtin⟩ hbuiltin "let x"
      .script).2 habsent⟩

end ScopeLint
