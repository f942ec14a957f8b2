import ScopeLint.Proofs.Outline.Soundness
import ScopeLint.Proofs.Outline.Completeness

/-! # Exactly the uses of the word are reported

The rule reports the mentions of the word in the outline of a program.  In a tree
of the promised shape these are the uses below the root: only uses are mentioned,
and every use is.
-/

namespace ScopeLint

open Syntax (Label Node Identifier Program Kind Field Shape)

/-- The outline of a program mentions exactly the uses of names in its tree. -/
theorem mem_mentions_root {root : Node} (hroot : root.label.kind = .program)
    (hshaped : root.Shaped) (l : Label) :
    l ∈ mentionsAll (root.outline .contents) ↔ Use root l := by
  constructor
  · exact (sound hshaped).outline .contents (Or.inl hroot) l
  · exact (complete hshaped).outline .contents (Or.inl hroot) nofun l

/-- **Exactly the uses of the word are reported**, whatever the program declares: the
nodes of the kind of a name, with that text, that are not labels. -/
theorem noUndefined_uses {program : Program} (hroot : program.root.label.kind = .program)
    (hshaped : program.root.Shaped) (x : Identifier) :
    x ∈ (NoUndefined.rule.check (analyze program)).map (·.node) ↔
      ∃ l, Use program.root l ∧
        String.ofList (program.source.textOf l.span) = NoUndefined.word ∧
          x = .ofLabel program.source l := by
  rw [(NoUndefined.reports_perm_outline program).mem_iff, List.mem_filter, List.mem_map]
  constructor
  · rintro ⟨⟨l, hl, rfl⟩, hname⟩
    exact ⟨l, (mem_mentions_root hroot hshaped l).mp hl, of_decide_eq_true hname, rfl⟩
  · rintro ⟨l, huse, htext, rfl⟩
    exact ⟨⟨l, (mem_mentions_root hroot hshaped l).mpr huse, rfl⟩, decide_eq_true htext⟩

namespace DeclaredByProperty

/-- A program that declares the word and reads a property of that name. -/
def text : String := "var undefined = o.undefined"

/-- The name that it declares. -/
def name : Label := .onFirstLine 3 .undefined 4 13 [.name]

/-- The name of the property. -/
def property : Label := .onFirstLine 6 .propertyIdentifier 18 27 [.property]

/-- The value that it declares. -/
def value : Node :=
  .node (.onFirstLine 4 (.other "member_expression") 16 27 [.value])
    [.node (.onFirstLine 5 .identifier 16 17 [.object]) [], .node property []]

/-- Its only declarator. -/
def declarator : Node :=
  .node (.onFirstLine 2 .variableDeclarator 4 27 []) [.node name [], value]

/-- Its only statement. -/
def declaration : Node := .node (.onFirstLine 1 .variableDeclaration 0 27 []) [declarator]

/-- Its tree. -/
def root : Node := .node (.onFirstLine 0 .program 0 27 []) [declaration]

/-- The program. -/
def program : Program := ⟨Source.ofText text, root, .script⟩

theorem value_shaped : value.Shaped := by
  refine .node ?_ (by simp [Node.Shaped.of_nil])
  constructor <;> simp [property, Label.onFirstLine, Node.label, Kind.isLeaf, Kind.isPatternPart,
    Kind.isFunction, Kind.takesName, Kind.keyField?, Kind.isReadByField, Kind.parameterList]

theorem declarator_shaped : declarator.Shaped := by
  refine .node ?_ (by simp [Node.Shaped.of_nil, value_shaped])
  constructor
  case parts =>
    intro _ c hc _ _ _
    rcases List.mem_pair.mp hc with rfl | rfl
    · exact .field (List.mem_cons_self ..) rfl
    · exact .field (List.mem_cons_of_mem _ (List.mem_singleton_self _)) rfl
  all_goals simp [name, property, Label.onFirstLine, value, Node.label, Kind.isLeaf,
    Kind.isPatternPart, Kind.isFunction, Kind.takesName, Kind.keyField?, Kind.parameterList]

theorem declaration_shaped : declaration.Shaped := by
  refine .node ?_ (by simp [declarator_shaped])
  constructor
  case parts =>
    intro _ c hc _ _ _
    rw [List.mem_singleton.mp hc]
    exact .declarator (Or.inl rfl) rfl
  all_goals simp [name, Label.onFirstLine, declarator, Node.label, Kind.isLeaf, Kind.isPatternPart,
    Kind.isFunction, Kind.takesName, Kind.keyField?, Kind.parameterList]

theorem root_shaped : root.Shaped := by
  refine .node ?_ (by simp [declaration_shaped])
  constructor <;> simp [Label.onFirstLine, declaration, Node.label, Kind.isLeaf, Kind.isPatternPart,
    Kind.isFunction, Kind.takesName, Kind.keyField?, Kind.isReadByField, Kind.parameterList,
    Kind.program]

theorem name_use : Use root name :=
  .within (.plain rfl (List.mem_singleton_self _))
    (.within (.plain rfl (List.mem_singleton_self _))
      (.within (.plain rfl (List.mem_cons_self ..)) (.name rfl)))

end DeclaredByProperty

/-- In `var undefined = o.undefined` the name is reported and the property is not. -/
theorem noUndefined_uses_declared :
    DeclaredByProperty.program.root.label.kind = .program ∧
      DeclaredByProperty.program.root.Shaped ∧
      .ofLabel DeclaredByProperty.program.source DeclaredByProperty.name ∈
        (NoUndefined.rule.check (analyze DeclaredByProperty.program)).map (·.node) ∧
      .ofLabel DeclaredByProperty.program.source DeclaredByProperty.property ∉
        (NoUndefined.rule.check (analyze DeclaredByProperty.program)).map (·.node) := by
  have hshaped := DeclaredByProperty.root_shaped
  refine ⟨rfl, hshaped, ?_, ?_⟩
  · refine (noUndefined_uses rfl hshaped _).mpr ⟨_, DeclaredByProperty.name_use, ?_, rfl⟩
    decide +kernel
  · intro hmem
    obtain ⟨l, huse, _, hl⟩ := (noUndefined_uses rfl hshaped _).mp hmem
    have hkind : Kind.propertyIdentifier = l.kind := congrArg Identifier.kind hl
    have hname := huse.mem_labels.2
    rw [← hkind] at hname
    cases hname

end ScopeLint
