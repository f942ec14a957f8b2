import ScopeLint.Proofs.Outline.Shares
import ScopeLint.Proofs.Outline.Slots

/-! # What parts mention

A plan mentions what its parts mention, and a part mentions a node of its own or
what some child mentions in the part's role.
-/

namespace ScopeLint

open Syntax

variable {l : Label} {children : List Node}

/-! ### Lists of nodes -/

theorem mem_mentions_outlineNamed {role : Role} {nodes : List Node} :
    l ∈ mentionsAll (outlineNamed role nodes) ↔
      ∃ c ∈ nodes, c.label.named = true ∧ l ∈ mentionsAll (c.outline role) := by
  induction nodes with
  | nil => simp [outlineNamed, mentionsAll]
  | cons c rest ih =>
    rw [outlineNamed, mentionsAll_append, List.mem_append, List.exists_mem_cons_iff, ih]
    by_cases h : c.label.named = true
    · simp [h]
    · simp [h, mentionsAll]

theorem mem_mentions_outlineLater {role : Role} {nodes : List Node} :
    l ∈ mentionsAll (outlineLater role nodes) ↔
      ∃ c ∈ (nodes.filter (·.label.named)).tail, l ∈ mentionsAll (c.outline role) := by
  induction nodes with
  | nil => simp [outlineLater, mentionsAll]
  | cons c rest ih =>
    rw [outlineLater]
    by_cases h : c.label.named = true
    · have hlater : ((c :: rest).filter (·.label.named)).tail = rest.filter (·.label.named) := by
        simp [h]
      rw [if_pos h, mem_mentions_outlineNamed, hlater]
      simp only [List.mem_filter, and_assoc]
    · have hlater : (c :: rest).filter (·.label.named) = rest.filter (·.label.named) := by
        simp [h]
      rw [if_neg h, hlater]
      exact ih

theorem mem_mentions_outlineField {f : Field} {role : Role} {nodes : List Node} :
    l ∈ mentionsAll (outlineField f role nodes) ↔
      ∃ c, Node.childInField? f nodes = some c ∧ l ∈ mentionsAll (c.outline role) := by
  induction nodes with
  | nil => simp [outlineField, mentionsAll, Node.childInField?]
  | cons c rest ih =>
    rw [outlineField, Node.childInField?, List.find?_cons]
    cases c.label.isIn f with
    | true => simp
    | false => exact ih

namespace Pattern

theorem mem_fst_namesInNamed {u : Bool} {nodes : List Node} :
    l ∈ (namesInNamed u nodes).map Prod.fst ↔
      ∃ c ∈ nodes, c.label.named = true ∧ l ∈ (names u c).map Prod.fst := by
  simp only [List.mem_map, mem_namesInNamed]
  grind

theorem mem_fst_namesInField {u : Bool} {f : Field} {nodes : List Node} :
    l ∈ (namesInField u f nodes).map Prod.fst ↔
      ∃ c, Node.childInField? f nodes = some c ∧ l ∈ (names u c).map Prod.fst := by
  simp only [List.mem_map, mem_namesInField]
  grind

end Pattern

/-! ### Parts -/

namespace Part

/-- What a part mentions, of itself and of the children of its node. -/
def mentions (children : List Node) (part : Part) : List Label :=
  mentionsAll (part.entries (.ofChildren children))

/-- **A plan mentions what its parts mention.** -/
theorem mem_mentions_plan {parts : List Part} :
    l ∈ mentionsAll (entriesAll (.ofChildren children) parts) ↔
      ∃ part ∈ parts, l ∈ part.mentions children := by
  induction parts with
  | nil => simp [entriesAll, mentionsAll]
  | cons part rest ih =>
    rw [entriesAll, mentionsAll_append, List.mem_append, ih, List.exists_mem_cons_iff]
    rfl

@[simp] theorem mem_mentions_entry {e : Entry} :
    l ∈ (Part.entry e).mentions children ↔ l ∈ e.mentions := by
  simp [mentions, entries, mentionsAll]

@[simp] theorem mem_mentions_named {role : Role} :
    l ∈ (Part.named role).mentions children ↔
      ∃ c ∈ children, c.label.named = true ∧ l ∈ mentionsAll (c.outline role) :=
  mem_mentions_outlineNamed

@[simp] theorem mem_mentions_laterNamed {role : Role} :
    l ∈ (Part.laterNamed role).mentions children ↔
      ∃ c ∈ (children.filter (·.label.named)).tail, l ∈ mentionsAll (c.outline role) :=
  mem_mentions_outlineLater

@[simp] theorem mem_mentions_field {f : Field} {role : Role} :
    l ∈ (Part.field f role).mentions children ↔
      ∃ c, Node.childInField? f children = some c ∧ l ∈ mentionsAll (c.outline role) :=
  mem_mentions_outlineField

@[simp] theorem mem_mentions_scope {kind : ScopeKind} {span : Span} {parts : List Part} :
    l ∈ (Part.scope kind span parts).mentions children ↔
      ∃ part ∈ parts, l ∈ part.mentions children := by
  rw [← mem_mentions_plan]
  simp [mentions, entries, mentionsAll, Entry.mentions]

theorem mem_mentions_entries {es : List Entry} :
    (∃ part ∈ es.map Part.entry, l ∈ part.mentions children) ↔ l ∈ mentionsAll es := by
  rw [← mem_mentions_plan, entriesAll_entries]

theorem mem_mentions_definitionInField {kind : DefinitionKind} {f : Field} :
    (∃ part ∈ definitionInField kind f children, l ∈ part.mentions children) ↔
      ∃ c, Node.childInField? f children = some c ∧ c.label = l := by
  unfold definitionInField
  rw [Node.inField?_eq]
  cases Node.childInField? f children <;> simp [Entry.mentions, eq_comm]

theorem mem_mentions_scopeOverField {kind : ScopeKind} {f : Field} {role : Role} :
    (∃ part ∈ scopeOverField kind f role children, l ∈ part.mentions children) ↔
      ∃ c, Node.childInField? f children = some c ∧ l ∈ mentionsAll (c.outline role) := by
  unfold scopeOverField
  rw [Node.inField?_eq]
  cases h : Node.childInField? f children <;> simp [h]

theorem mem_mentions_computedKey {place : Field} :
    (∃ part ∈ computedKey place children, l ∈ part.mentions children) ↔
      ∃ c, Node.childInField? place children = some c ∧
        c.label.kind = .computedPropertyName ∧ l ∈ mentionsAll (c.outline .code) := by
  unfold computedKey
  rw [Node.kindInField?, Node.inField?_eq]
  cases h : Node.childInField? place children with
  | none => simp
  | some c => by_cases hkind : c.label.kind = .computedPropertyName <;> simp [hkind, h]

end Part

theorem mem_mentions_outline {role : Role} {label : Label} :
    l ∈ mentionsAll ((Node.node label children).outline role) ↔
      ∃ part ∈ plan role label children, l ∈ part.mentions children := by
  rw [outline_node, Part.mem_mentions_plan]

end ScopeLint
