import ScopeLint.Proofs.Outline.Mentions
import ScopeLint.Proofs.Outline.Forms

/-! # No node is mentioned twice

A plan hands the children of a node to several parts.  Each part takes a **share**
(`Share`): it goes through the children, and from each it takes nothing or at
most the nodes below that child.  Shares that never claim the same child add up
to a share, so a plan mentions the nodes below it at most once each.  Most parts
claim children by field; what keeps them apart is that no node stands in two
fields (`Label.Placed`).
-/

namespace ScopeLint

open Syntax

/-- A node stands in one field at most, a decorator in the field for decorators or
in none, and the clause of an export in none. -/
structure Syntax.Label.Placed (l : Label) : Prop where
  field : ∀ f g : Field, l.isIn f = true → l.isIn g = true → f = g
  decorator : l.kind = .decorator → ∀ f : Field, l.isIn f = true → f = .decorator
  exportClause : l.kind = .exportClause → ∀ f : Field, l.isIn f = false

/-- A node in one field at most, whose kind is not special. -/
theorem Syntax.Label.placed_of_length {l : Label} (h : l.fields.length ≤ 1)
    (hdecorator : l.kind ≠ .decorator) (hclause : l.kind ≠ .exportClause) : l.Placed where
  field := by
    intro f g hf hg
    have hf' := List.contains_iff_mem.mp hf
    have hg' := List.contains_iff_mem.mp hg
    generalize l.fields = fields at h hf' hg'
    match fields, h with
    | [_], _ => rw [List.mem_singleton.mp hf', List.mem_singleton.mp hg']
  decorator := fun he => absurd he hdecorator
  exportClause := fun he => absurd he hclause

/-- **A way to take from a list of nodes**, at most what lies at or below the nodes
that it claims; `take` counts how often it takes the node `x`. -/
structure Share (x : Label) (nodes : List Node) (claims : Label → Prop)
    (take : List Node → Nat) : Prop where
  nil : take [] = 0
  skip : ∀ c rest, c ∈ nodes → ¬ claims c.label → take (c :: rest) ≤ take rest
  own : ∀ c rest, c ∈ nodes → take (c :: rest) ≤ c.labels.count x + take rest

namespace Share

variable {x : Label} {nodes : List Node} {claims claims' : Label → Prop}
  {take take' : List Node → Nat}

/-- Shares that never claim the same node add up. -/
theorem add (h : Share x nodes claims take) (h' : Share x nodes claims' take')
    (hapart : ∀ c ∈ nodes, claims c.label → claims' c.label → False) :
    Share x nodes (fun l => claims l ∨ claims' l) (fun cs => take cs + take' cs) where
  nil := by rw [h.nil, h'.nil]
  skip := by
    intro c rest hc hnot
    exact Nat.add_le_add (h.skip c rest hc fun hcl => hnot (Or.inl hcl))
      (h'.skip c rest hc fun hcl => hnot (Or.inr hcl))
  own := by
    intro c rest hc
    by_cases hcl : claims c.label
    · have hown := h.own c rest hc
      have hskip := h'.skip c rest hc (hapart c hc hcl)
      omega
    · have hskip := h.skip c rest hc hcl
      have hown := h'.own c rest hc
      omega

/-- All that a share takes lies in the trees of the list. -/
theorem le (h : Share x nodes claims take) : take nodes ≤ (Node.labelsAll nodes).count x := by
  have key : ∀ cs : List Node, (∀ c ∈ cs, c ∈ nodes) →
      take cs ≤ (Node.labelsAll cs).count x := by
    intro cs
    induction cs with
    | nil =>
      intro _
      rw [h.nil]
      exact Nat.zero_le _
    | cons c rest ih =>
      intro hmem
      have hown := h.own c rest (hmem c (List.mem_cons_self ..))
      have hrest := ih fun d hd => hmem d (List.mem_cons_of_mem _ hd)
      rw [Node.labelsAll, List.count_append]
      omega
  exact key nodes fun _ hc => hc

end Share

/-! ### Weights -/

/-- What lies below a node with these children. -/
def Below.ofChildren (children : List Node) : Below where
  named := fun r => outlineNamed r children
  laterNamed := fun r => outlineLater r children
  field := fun f r => outlineField f r children

theorem outline_node (role : Role) (label : Label) (children : List Node) :
    (Node.node label children).outline role =
      Part.entriesAll (.ofChildren children) (plan role label children) := by
  rw [Node.outline]
  rfl

/-- How often entries mention a node. -/
def mentionCount (x : Label) (es : List Entry) : Nat := (mentionsAll es).count x

/-- How often parts mention a node. -/
def weight (x : Label) (children : List Node) (parts : List Part) : Nat :=
  mentionCount x (Part.entriesAll (.ofChildren children) parts)

/-- How often the first nodes in some fields mention a node. -/
def fieldCount (x : Label) (fs : List (Field × Role)) (children : List Node) : Nat :=
  fs.foldr (fun p n => mentionCount x (outlineField p.1 p.2 children) + n) 0

section Weight

variable (x : Label) (children : List Node)

@[simp] theorem fieldCount_nil : fieldCount x [] children = 0 := rfl

@[simp] theorem fieldCount_cons (p : Field × Role) (fs : List (Field × Role)) :
    fieldCount x (p :: fs) children =
      mentionCount x (outlineField p.1 p.2 children) + fieldCount x fs children := rfl

@[simp] theorem weight_nil : weight x children [] = 0 := rfl

theorem mentionCount_append (es es' : List Entry) :
    mentionCount x (es ++ es') = mentionCount x es + mentionCount x es' := by
  rw [mentionCount, mentionsAll_append, List.count_append]
  rfl

theorem weight_append (ps qs : List Part) :
    weight x children (ps ++ qs) = weight x children ps + weight x children qs := by
  rw [weight, Part.entriesAll_append, mentionCount_append]
  rfl

theorem weight_cons (p : Part) (ps : List Part) :
    weight x children (p :: ps) = weight x children [p] + weight x children ps :=
  weight_append x children [p] ps

@[simp] theorem weight_entry (e : Entry) :
    weight x children [.entry e] = e.mentions.count x := by
  show (mentionsAll [e]).count x = _
  rw [mentionsAll, mentionsAll, List.append_nil]

@[simp] theorem weight_named (role : Role) :
    weight x children [.named role] = mentionCount x (outlineNamed role children) := by
  show mentionCount x (outlineNamed role children ++ []) = _
  rw [List.append_nil]

@[simp] theorem weight_laterNamed (role : Role) :
    weight x children [.laterNamed role] = mentionCount x (outlineLater role children) := by
  show mentionCount x (outlineLater role children ++ []) = _
  rw [List.append_nil]

@[simp] theorem weight_field (f : Field) (role : Role) :
    weight x children [.field f role] = mentionCount x (outlineField f role children) := by
  show mentionCount x (outlineField f role children ++ []) = _
  rw [List.append_nil]

@[simp] theorem weight_scope (kind : ScopeKind) (span : Span) (parts : List Part) :
    weight x children [.scope kind span parts] = weight x children parts := by
  show (mentionsAll _ ++ []).count x = _
  rw [List.append_nil]
  rfl

theorem weight_entries (es : List Entry) :
    weight x children (es.map .entry) = mentionCount x es := by
  rw [weight, Part.entriesAll_entries]

/-- Entries that mention one node each. -/
theorem weight_eachMentions {entry : Label → Entry} (h : ∀ name, (entry name).mentions = [name])
    (names : List Label) :
    weight x children (names.map fun name => .entry (entry name)) = names.count x := by
  induction names with
  | nil => rfl
  | cons name rest ih =>
    rw [List.map_cons, weight_cons, weight_entry, h, ih, ← List.count_append]
    rfl

theorem outlineField_of_none {f : Field} {cs : List Node} (role : Role)
    (h : Node.inField? f cs = none) : outlineField f role cs = [] := by
  induction cs with
  | nil => rfl
  | cons c rest ih =>
    rw [Node.inField?, List.map_cons, List.find?_cons] at h
    cases hin : c.label.isIn f with
    | true => rw [hin] at h; cases h
    | false =>
      rw [hin] at h
      rw [outlineField, hin]
      exact ih h

@[simp] theorem weight_definitionInField (kind : DefinitionKind) (f : Field) :
    weight x children (Part.definitionInField kind f children) =
      (Node.inField? f children).toList.count x := by
  unfold Part.definitionInField
  cases Node.inField? f children with
  | none => rfl
  | some name => rw [Option.map_some, Option.toList_some, weight_entry]; rfl

@[simp] theorem weight_scopeOverField (kind : ScopeKind) (f : Field) (role : Role) :
    weight x children (Part.scopeOverField kind f role children) =
      mentionCount x (outlineField f role children) := by
  unfold Part.scopeOverField
  cases h : Node.inField? f children with
  | none => rw [outlineField_of_none role h]; rfl
  | some name => rw [Option.map_some, Option.toList_some, weight_scope, weight_field]

theorem weight_computedKey (place : Field) :
    weight x children (Part.computedKey place children) ≤
      mentionCount x (outlineField place .code children) := by
  unfold Part.computedKey
  split
  · rw [weight_field]
  · exact Nat.zero_le _

/-- A function takes from the parameters, in one of two fields, and from the body. -/
theorem weight_function (span : Span) :
    ∃ f r r', (f = .parameters ∨ f = .parameter) ∧
      weight x children [Part.function span children] =
        mentionCount x (outlineField f r children) +
          mentionCount x (outlineField .body r' children) := by
  have hbody : ∃ r', weight x children [Part.sharedBody children] =
      mentionCount x (outlineField .body r' children) := by
    unfold Part.sharedBody
    split <;> exact ⟨_, weight_field ..⟩
  obtain ⟨r', hr'⟩ := hbody
  unfold Part.function
  rw [weight_scope]
  split
  · exact ⟨.parameters, _, r', Or.inl rfl, by rw [weight_cons, weight_field, hr']⟩
  · exact ⟨.parameter, _, r', Or.inr rfl, by rw [weight_cons, weight_field, hr']⟩

end Weight

end ScopeLint
