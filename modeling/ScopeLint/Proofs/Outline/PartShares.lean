import ScopeLint.Proofs.Outline.Shares
import ScopeLint.Proofs.Syntax.Labels

/-! # The shares of parts

What each kind of part takes from the children of a node, given that every child
mentions only what lies at or below it (`Covers`).  A pattern is met twice, for
the names it binds and for the code inside it; both together are one share, which
is why `Covers` speaks of them together.
-/

namespace ScopeLint

open Syntax

/-- What a node mentions lies at or below it, in every role. -/
structure Covers (x : Label) (node : Node) : Prop where
  role : ∀ role, mentionCount x (node.outline role) ≤ node.labels.count x
  /-- As a part of a class a node does not count itself. -/
  below : mentionCount x (node.outline .classPart) ≤ (Node.labelsAll node.children).count x
  /-- The names of a pattern and the code inside it do not overlap. -/
  pattern : ∀ u, ((Pattern.names u node).map Prod.fst).count x +
    mentionCount x (node.outline .pattern) ≤ node.labels.count x

theorem Syntax.Node.count_labels (x : Label) (node : Node) :
    node.labels.count x = [node.label].count x + (labelsAll node.children).count x := by
  rw [node.labels_eq, ← List.count_append]
  rfl

/-- What is counted below a node is counted at or below it. -/
theorem Syntax.Node.le_count_labels {x : Label} {label : Label} {children : List Node} {n : Nat}
    (h : n ≤ (Node.labelsAll children).count x) :
    n ≤ (Node.node label children).labels.count x := by
  rw [Node.count_labels]
  exact Nat.le_trans h (Nat.le_add_left _ _)

namespace Share

variable {x : Label} {nodes : List Node}

/-! ### The shares of parts -/

/-- The named nodes, in a role that matters only for some nodes. -/
theorem named (hc : ∀ c ∈ nodes, Covers x c) (role : Role) (claims : Label → Prop)
    (hsilent : ∀ c : Node, ¬ claims c.label → c.outline role = []) :
    Share x nodes claims fun cs => mentionCount x (outlineNamed role cs) where
  nil := rfl
  skip := by
    intro c rest _ hnot
    show mentionCount x ((if c.label.named then c.outline role else []) ++ _) ≤ _
    rw [hsilent c hnot, ite_self, List.nil_append]
  own := by
    intro c rest hmem
    show mentionCount x ((if c.label.named then c.outline role else []) ++ _) ≤ _
    have hle := (hc c hmem).role role
    rw [mentionCount_append]
    split
    · omega
    · exact Nat.add_le_add_right (Nat.zero_le _) _

/-- The first node in a field. -/
theorem field (hc : ∀ c ∈ nodes, Covers x c) (f : Field) (role : Role) :
    Share x nodes (·.isIn f = true) fun cs => mentionCount x (outlineField f role cs) where
  nil := rfl
  skip := by
    intro c rest _ hnot
    rw [outlineField, if_neg hnot]
  own := by
    intro c rest hmem
    have hle := (hc c hmem).role role
    rw [outlineField]
    split <;> omega

/-- The first node in a field itself, as a name. -/
theorem name (f : Field) :
    Share x nodes (·.isIn f = true) fun cs => (Node.inField? f cs).toList.count x where
  nil := rfl
  skip := by
    intro c rest _ hnot
    rw [Node.inField?, Node.inField?, List.map_cons, List.find?_cons]
    simp [hnot]
  own := by
    intro c rest _
    have hlabels := c.count_labels x
    rw [Node.inField?, Node.inField?, List.map_cons, List.find?_cons]
    cases c.label.isIn f with
    | true =>
      show [c.label].count x ≤ _
      omega
    | false => exact Nat.le_add_left _ _

/-- A node named by a class and what lies below the heritage and the body of the
class. -/
theorem classBody (hc : ∀ c ∈ nodes, Covers x c) (hplaced : ∀ c ∈ nodes, c.label.Placed) :
    Share x nodes (·.kind ≠ .decorator) fun cs =>
      (Node.inField? .name cs).toList.count x +
        mentionCount x (outlineNamed .classPart cs) where
  nil := rfl
  skip := by
    intro c rest hmem hnot
    have hkind : c.label.kind = .decorator := Decidable.not_not.mp hnot
    have hname : c.label.isIn .name = false := by
      cases hin : c.label.isIn .name with
      | false => rfl
      | true => exact absurd ((hplaced c hmem).decorator hkind _ hin) (by decide)
    have hshare : Share x nodes (·.isIn .name = true)
        fun cs => (Node.inField? .name cs).toList.count x := name .name
    have hskip := hshare.skip c rest hmem (by rw [hname]; exact Bool.false_ne_true)
    have hsilent : c.outline .classPart = [] := by
      obtain ⟨label, children⟩ := c
      have hkind : label.kind = .decorator := hkind
      rw [outline_node, plan, if_neg (by rw [hkind]; decide)]
      rfl
    have hpart : mentionCount x (outlineNamed .classPart (c :: rest)) =
        mentionCount x (outlineNamed .classPart rest) := by
      rw [outlineNamed, hsilent, ite_self, List.nil_append]
    omega
  own := by
    intro c rest hmem
    have hbelow := (hc c hmem).below
    have hself : (Node.inField? .name (c :: rest)).toList.count x ≤
        [c.label].count x + (Node.inField? .name rest).toList.count x := by
      rw [Node.inField?, Node.inField?, List.map_cons, List.find?_cons]
      cases c.label.isIn .name with
      | true => exact Nat.le_add_right _ _
      | false => exact Nat.le_add_left _ _
    have hpart : mentionCount x (outlineNamed .classPart (c :: rest)) ≤
        (Node.labelsAll c.children).count x + mentionCount x (outlineNamed .classPart rest) := by
      rw [outlineNamed, mentionCount_append]
      split
      · omega
      · exact Nat.add_le_add_right (Nat.zero_le _) _
    have hlabels := c.count_labels x
    omega

/-- The names and the code of patterns side by side. -/
theorem patterns (hc : ∀ c ∈ nodes, Covers x c) (u : Bool) :
    Share x nodes (fun _ => True) fun cs =>
      ((Pattern.namesInNamed u cs).map Prod.fst).count x +
        mentionCount x (outlineNamed .pattern cs) where
  nil := rfl
  skip := fun _ _ _ hnot => absurd trivial hnot
  own := by
    intro c rest hmem
    have hle := (hc c hmem).pattern u
    rw [Pattern.namesInNamed, outlineNamed, mentionCount_append, List.map_append,
      List.count_append]
    cases c.label.named with
    | true => simp only [if_true]; omega
    | false =>
      have hnil : mentionCount x [] = 0 := rfl
      simp only [Bool.false_eq_true, if_false, List.map_nil, List.count_nil, hnil]
      omega

/-- The names and the code of the pattern in a field. -/
theorem patternIn (hc : ∀ c ∈ nodes, Covers x c) (u : Bool) (f : Field) :
    Share x nodes (·.isIn f = true) fun cs =>
      ((Pattern.namesInField u f cs).map Prod.fst).count x +
        mentionCount x (outlineField f .pattern cs) where
  nil := rfl
  skip := by
    intro c rest _ hnot
    rw [Pattern.namesInField, outlineField, if_neg hnot, if_neg hnot]
  own := by
    intro c rest hmem
    have hle := (hc c hmem).pattern u
    rw [Pattern.namesInField, outlineField]
    split <;> omega

/-- What is read off chosen nodes. -/
theorem chosen (claims : Label → Prop) {p : Node → Bool} {f : Node → List Label}
    (hp : ∀ c, p c = true → claims c.label)
    (hf : ∀ c ∈ nodes, (f c).count x ≤ c.labels.count x) :
    Share x nodes claims fun cs => ((cs.filter p).flatMap f).count x where
  nil := rfl
  skip := by
    intro c rest _ hnot
    rw [List.filter_cons_of_neg (mt (hp c) hnot)]
  own := by
    intro c rest hmem
    have hle := hf c hmem
    by_cases hpc : p c = true
    · rw [List.filter_cons_of_pos hpc, List.flatMap_cons, List.count_append]
      omega
    · rw [List.filter_cons_of_neg hpc]
      omega

/-! ### Several fields -/

theorem apart (hplaced : ∀ c ∈ nodes, c.label.Placed) {f g : Field} (hne : f ≠ g) :
    ∀ c ∈ nodes, c.label.isIn f = true → c.label.isIn g = true → False :=
  fun c hmem hf hg => hne ((hplaced c hmem).field f g hf hg)

/-- The first nodes in distinct fields. -/
theorem fields (hc : ∀ c ∈ nodes, Covers x c) (hplaced : ∀ c ∈ nodes, c.label.Placed) :
    ∀ fs : List (Field × Role), (fs.map Prod.fst).Nodup →
      Share x nodes (fun l => ∃ f ∈ fs.map Prod.fst, l.isIn f = true)
        (fieldCount x fs)
  | [], _ => by
      constructor
      · rfl
      · exact fun _ _ _ _ => Nat.le_refl _
      · exact fun _ _ _ => Nat.zero_le _
  | (f, role) :: fs, hnodup => by
      obtain ⟨hnot, hrest⟩ := List.nodup_cons.mp hnodup
      have hboth := (field hc f role).add (fields hc hplaced fs hrest) fun c hmem hf hothers => by
        obtain ⟨g, hg, hin⟩ := hothers
        have hne : f ≠ g := fun he => hnot (he ▸ hg)
        exact apart hplaced hne c hmem hf hin
      constructor
      · exact hboth.nil
      · intro c rest hmem hnone
        refine hboth.skip c rest hmem fun hclaim => hnone ?_
        rcases hclaim with hf | ⟨g, hg, hin⟩
        · exact ⟨f, List.mem_cons_self .., hf⟩
        · exact ⟨g, List.mem_cons_of_mem _ hg, hin⟩
      · exact hboth.own

/-- The decorators among the nodes. -/
theorem decorators (hc : ∀ c ∈ nodes, Covers x c) :
    Share x nodes (·.kind = .decorator) fun cs => mentionCount x (outlineNamed .decorator cs) := by
  refine named hc .decorator _ fun c hnot => ?_
  obtain ⟨label, children⟩ := c
  have hnot : ¬ label.kind = .decorator := hnot
  rw [outline_node, plan, if_neg hnot]
  rfl

end Share

/-! ### Plans -/

section Plans

variable {x : Label} {children : List Node} (hc : ∀ c ∈ children, Covers x c)
  (hplaced : ∀ c ∈ children, c.label.Placed)

include hc hplaced

theorem fields_le (fs : List (Field × Role)) (hnodup : (fs.map Prod.fst).Nodup) :
    fieldCount x fs children ≤
      (Node.labelsAll children).count x :=
  (Share.fields hc hplaced fs hnodup).le

/-- Decorators stand in none of the fields that are read. -/
theorem decorated_le (fs : List (Field × Role)) (hnodup : (fs.map Prod.fst).Nodup)
    (hnot : Field.decorator ∉ fs.map Prod.fst) :
    mentionCount x (outlineNamed .decorator children) +
        fieldCount x fs children ≤
      (Node.labelsAll children).count x := by
  refine ((Share.decorators hc).add (Share.fields hc hplaced fs hnodup) ?_).le
  rintro c hmem hkind ⟨f, hf, hin⟩
  exact hnot ((hplaced c hmem).decorator hkind f hin ▸ hf)

theorem nameAndFields_le (fs : List (Field × Role)) (hnodup : (fs.map Prod.fst).Nodup)
    (hnot : Field.name ∉ fs.map Prod.fst) :
    (Node.inField? .name children).toList.count x +
        fieldCount x fs children ≤
      (Node.labelsAll children).count x := by
  refine ((Share.name .name).add (Share.fields hc hplaced fs hnodup) ?_).le
  rintro c hmem hname ⟨f, hf, hin⟩
  have hne : Field.name ≠ f := fun he => hnot (he ▸ hf)
  exact Share.apart hplaced hne c hmem hname hin

theorem class_le :
    mentionCount x (outlineNamed .decorator children) +
        ((Node.inField? .name children).toList.count x +
          mentionCount x (outlineNamed .classPart children)) ≤
      (Node.labelsAll children).count x :=
  ((Share.decorators hc).add (Share.classBody hc hplaced) fun _ _ h hne => hne h).le

omit hplaced in
theorem named_le (role : Role) :
    mentionCount x (outlineNamed role children) ≤ (Node.labelsAll children).count x :=
  (Share.named hc role (fun _ => True) fun _ h => absurd trivial h).le

omit hplaced in
theorem laterNamed_le (role : Role) :
    mentionCount x (outlineLater role children) ≤ (Node.labelsAll children).count x := by
  have hle : ∀ cs : List Node,
      mentionCount x (outlineLater role cs) ≤ mentionCount x (outlineNamed role cs) := by
    intro cs
    induction cs with
    | nil => exact Nat.le_refl _
    | cons c rest ih =>
      rw [outlineLater, outlineNamed, mentionCount_append]
      split
      · exact Nat.le_add_left _ _
      · exact Nat.le_trans ih (Nat.le_add_left _ _)
  exact Nat.le_trans (hle children) (named_le hc role)

omit hplaced in
theorem patterns_le (u : Bool) :
    ((Pattern.namesInNamed u children).map Prod.fst).count x +
        mentionCount x (outlineNamed .pattern children) ≤ (Node.labelsAll children).count x :=
  (Share.patterns hc u).le

end Plans

/-! ### Clauses without code -/

section Clauses

variable (x : Label)

/-- A label picked among those of the children. -/
theorem count_picked_le {o : Option Label} {children : List Node}
    (h : ∀ l ∈ o, l ∈ children.map Node.label) :
    o.toList.count x ≤ (Node.labelsAll children).count x := by
  cases o with
  | none => exact Nat.zero_le _
  | some l =>
    obtain ⟨c, hc, rfl⟩ := List.mem_map.mp (h l rfl)
    have hself := c.count_labels x
    have hin : c.labels.count x ≤ (Node.labelsAll children).count x := by
      clear h
      induction children with
      | nil => exact absurd hc List.not_mem_nil
      | cons d rest ih =>
        rw [Node.labelsAll, List.count_append]
        rcases List.mem_cons.mp hc with rfl | hc
        · exact Nat.le_add_right _ _
        · exact Nat.le_trans (ih hc) (Nat.le_add_left _ _)
    rw [Option.toList_some]
    omega

theorem mem_map_of_inField {f : Field} {children : List Node} {l : Label}
    (h : Node.inField? f children = some l) : l ∈ children.map Node.label :=
  List.mem_of_find?_eq_some h

/-- What is read off the named children lies below the node. -/
theorem count_namedParts_le {f : Node → List Label}
    (hf : ∀ c, (f c).count x ≤ c.labels.count x) (children : List Node) :
    ((children.filter (·.label.named)).flatMap f).count x ≤ (Node.labelsAll children).count x :=
  (Share.chosen (fun _ => True) (fun _ _ => trivial) fun c _ => hf c).le

theorem importedBySpecifier_le (node : Node) :
    (importedBySpecifier node).count x ≤ node.labels.count x := by
  obtain ⟨label, children⟩ := node
  rw [importedBySpecifier, Node.count_labels]
  split
  · refine Nat.le_trans (count_picked_le x fun l hl => ?_) (Nat.le_add_left _ _)
    have hfound := (Option.mem_filter_iff.mp hl).1
    cases halias : Node.inField? .alias children with
    | none =>
      rw [halias] at hfound
      exact mem_map_of_inField hfound
    | some l' =>
      rw [halias] at hfound
      exact mem_map_of_inField (Option.some.inj hfound ▸ halias)
  · exact Nat.zero_le _

theorem exportedBySpecifier_le (node : Node) :
    (exportedBySpecifier node).count x ≤ node.labels.count x := by
  obtain ⟨label, children⟩ := node
  rw [exportedBySpecifier, Node.count_labels]
  split
  · refine Nat.le_trans (count_picked_le x fun l hl => ?_) (Nat.le_add_left _ _)
    exact mem_map_of_inField (Option.mem_filter_iff.mp hl).1
  · exact Nat.zero_le _

theorem importedByPart_le (node : Node) :
    (importedByPart node).count x ≤ node.labels.count x := by
  obtain ⟨label, children⟩ := node
  rw [importedByPart, Node.count_labels]
  split
  · exact Nat.le_add_right _ _
  · exact Nat.le_add_right _ _
  · refine Nat.le_trans (count_picked_le x fun l hl => ?_) (Nat.le_add_left _ _)
    exact (List.mem_filter.mp (List.mem_of_find?_eq_some hl)).1
  · exact Nat.le_trans (count_namedParts_le x (importedBySpecifier_le x) children)
      (Nat.le_add_left _ _)
  · exact Nat.zero_le _

/-- What is read off a clause lies below the clause. -/
theorem count_clause_le {f : Node → List Label} (hf : ∀ c, (f c).count x ≤ c.labels.count x)
    (clause : Node) :
    ((clause.children.filter (·.label.named)).flatMap f).count x ≤ clause.labels.count x := by
  have hbelow := count_namedParts_le x hf clause.children
  have hlabels := clause.count_labels x
  omega

theorem importedNames_le (children : List Node) :
    (importedNames children).count x ≤ (Node.labelsAll children).count x :=
  (Share.chosen (fun _ => True) (fun _ _ => trivial) fun clause _ =>
    count_clause_le x (importedByPart_le x) clause).le

variable {x}

/-- The clauses of an export hold no code, and stand in no field. -/
theorem export_le {children : List Node} (hc : ∀ c ∈ children, Covers x c)
    (hplaced : ∀ c ∈ children, c.label.Placed) :
    mentionCount x (outlineNamed .decorator children) +
        (mentionCount x (outlineField .declaration .code children) +
          mentionCount x (outlineField .value .code children)) +
        (exportedNames children).count x ≤
      (Node.labelsAll children).count x := by
  have hfields := Share.fields hc hplaced [(.declaration, .code), (.value, .code)] (by decide)
  have hdecorated := (Share.decorators hc).add hfields fun c hmem hkind hothers => by
    obtain ⟨f, hf, hin⟩ := hothers
    have hdecorator := (hplaced c hmem).decorator hkind f hin
    subst hdecorator
    exact absurd hf (by decide)
  have hclauses : Share x children (·.kind = .exportClause) fun cs => (exportedNames cs).count x :=
    Share.chosen _ (fun c hp => by
      have hkind := (Bool.and_eq_true_iff.mp hp).2
      exact beq_iff_eq.mp hkind)
      fun clause _ => count_clause_le x (exportedBySpecifier_le x) clause
  have hall := (hdecorated.add hclauses fun c hmem hothers hkind => by
    rcases hothers with hdecorator | ⟨f, _, hin⟩
    · exact absurd (hkind.symm.trans hdecorator) (by decide)
    · rw [(hplaced c hmem).exportClause hkind f] at hin
      exact Bool.false_ne_true hin).le
  simpa using hall

end Clauses

end ScopeLint
