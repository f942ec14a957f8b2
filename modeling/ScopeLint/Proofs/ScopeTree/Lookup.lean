import ScopeLint.Scope.Tree

/-! # What the operations do to each scope

A scope is looked at through its names: whether it declares a name, and the
definitions and references kept for it.  Each operation on a scope changes one
of these at one name, and each operation on a tree changes one scope; the
lemmas here say which, and later modules use only them.
-/

namespace ScopeLint

namespace Scope

/-- The names declared in a scope. -/
def names (s : Scope) : List String := s.bindings.map (·.name)

/-- Whether a scope declares a name. -/
def declares (s : Scope) (name : String) : Bool := (s.binding? name).isSome

/-- The definitions of a name in a scope, none when it is not declared there. -/
def definitionsOf (s : Scope) (name : String) : List Definition :=
  ((s.binding? name).map (·.definitions)).getD []

/-- The references to a name kept in a scope, none when it is not declared
there. -/
def referencesOf (s : Scope) (name : String) : List Reference :=
  ((s.binding? name).map (·.references)).getD []

theorem declares_iff {s : Scope} {name : String} : s.declares name = true ↔ name ∈ s.names := by
  simp [declares, binding?, names, List.find?_isSome]

theorem binding?_name {s : Scope} {name : String} {b : Binding}
    (h : s.binding? name = some b) : b.name = name := by
  have := List.find?_some h
  simpa using this

/-! ### One scope -/

theorem find?_addDefinition (d : Definition) (name : String) : ∀ bs : List Binding,
    (addDefinition d bs).find? (·.name == name) =
      if name = d.name.name then
        some ⟨name, ((bs.find? (·.name == name)).map (·.definitions)).getD [] ++ [d],
          ((bs.find? (·.name == name)).map (·.references)).getD []⟩
      else bs.find? (·.name == name)
  | [] => by
      by_cases h : name = d.name.name
      · simp [addDefinition, h]
      · simp [addDefinition, h, Ne.symm h]
  | b :: rest => by
      have ih := find?_addDefinition d name rest
      unfold addDefinition
      by_cases hb : b.name = d.name.name
      · by_cases h : name = d.name.name
        · subst h; simp [hb]
        · simp [hb, h, Ne.symm h]
      · by_cases h : name = d.name.name
        · subst h; simp [hb, ih]
        · simp only [if_neg hb, if_neg h] at ih ⊢
          rw [List.find?_cons, List.find?_cons, ih]

theorem binding?_define (s : Scope) (d : Definition) (name : String) :
    (s.define d).binding? name =
      if name = d.name.name then
        some ⟨name, s.definitionsOf name ++ [d], s.referencesOf name⟩
      else s.binding? name :=
  find?_addDefinition d name s.bindings

theorem find?_addReference (r : Reference) (name : String) : ∀ bs : List Binding,
    (addReference r bs).find? (·.name == name) =
      (bs.find? (·.name == name)).map fun b =>
        if name = r.name then { b with references := b.references ++ [r] } else b
  | [] => rfl
  | b :: rest => by
      have ih := find?_addReference r name rest
      unfold addReference
      by_cases hb : b.name = r.name
      · by_cases h : name = r.name
        · simp [hb, h]
        · simp [hb, h, Ne.symm h]
      · rw [if_neg hb, List.find?_cons, List.find?_cons, ih]
        cases h : b.name == name with
        | true =>
            have hn : ¬ name = r.name := fun he => hb ((beq_iff_eq.mp h).trans he)
            simp [hn]
        | false => rfl

theorem binding?_resolve (s : Scope) (r : Reference) (name : String) :
    (s.resolve r).binding? name =
      (s.binding? name).map fun b =>
        if name = r.name then
          { b with references := b.references ++ [{ r with resolved := some s.id }] }
        else b :=
  find?_addReference { r with resolved := some s.id } name s.bindings

@[simp] theorem binding?_pass (s : Scope) (r : Reference) (name : String) :
    (s.pass r).binding? name = s.binding? name := rfl

@[simp] theorem binding?_adopt (s : Scope) (child : Nat) (name : String) :
    (s.adopt child).binding? name = s.binding? name := rfl

@[simp] theorem declares_resolve (s : Scope) (r : Reference) (name : String) :
    (s.resolve r).declares name = s.declares name := by
  simp [declares, binding?_resolve]

@[simp] theorem declares_pass (s : Scope) (r : Reference) (name : String) :
    (s.pass r).declares name = s.declares name := rfl

@[simp] theorem declares_adopt (s : Scope) (child : Nat) (name : String) :
    (s.adopt child).declares name = s.declares name := rfl

@[simp] theorem referencesOf_define (s : Scope) (d : Definition) (name : String) :
    (s.define d).referencesOf name = s.referencesOf name := by
  unfold referencesOf
  rw [binding?_define]
  by_cases h : name = d.name.name <;> simp [h, referencesOf]

theorem definitionsOf_define (s : Scope) (d : Definition) (name : String) :
    (s.define d).definitionsOf name =
      s.definitionsOf name ++ if name = d.name.name then [d] else [] := by
  unfold definitionsOf
  rw [binding?_define]
  by_cases h : name = d.name.name <;> simp [h, definitionsOf]

theorem referencesOf_resolve (s : Scope) (r : Reference) (name : String) :
    (s.resolve r).referencesOf name =
      s.referencesOf name ++
        if name = r.name ∧ s.declares name then [{ r with resolved := some s.id }] else [] := by
  unfold referencesOf declares
  rw [binding?_resolve]
  cases s.binding? name with
  | none => simp
  | some b => by_cases h : name = r.name <;> simp [h]

@[simp] theorem definitionsOf_resolve (s : Scope) (r : Reference) (name : String) :
    (s.resolve r).definitionsOf name = s.definitionsOf name := by
  unfold definitionsOf
  rw [binding?_resolve]
  cases s.binding? name with
  | none => simp
  | some b => by_cases h : name = r.name <;> simp [h]

/-- A name that is not declared has no definitions. -/
theorem definitionsOf_of_not_declares {s : Scope} {name : String}
    (h : s.declares name = false) : s.definitionsOf name = [] := by
  have hnone : s.binding? name = none := by simpa [declares] using h
  simp [definitionsOf, hnone]

/-! ### Distinct names -/

theorem names_addDefinition (d : Definition) : ∀ bs : List Binding,
    (addDefinition d bs).map (·.name) =
      if d.name.name ∈ bs.map (·.name) then bs.map (·.name)
      else bs.map (·.name) ++ [d.name.name]
  | [] => by simp [addDefinition]
  | b :: rest => by
      have ih := names_addDefinition d rest
      unfold addDefinition
      by_cases hb : b.name = d.name.name
      · simp [hb]
      · have hb' : ¬ d.name.name = b.name := fun h => hb h.symm
        simp only [if_neg hb, List.map_cons, ih, List.mem_cons, hb', false_or]
        split <;> simp

theorem names_addReference (r : Reference) : ∀ bs : List Binding,
    (addReference r bs).map (·.name) = bs.map (·.name)
  | [] => rfl
  | b :: rest => by
      unfold addReference
      split
      · rfl
      · simp [names_addReference r rest]

theorem nodup_names_define {s : Scope} (h : s.names.Nodup) (d : Definition) :
    (s.define d).names.Nodup := by
  show ((addDefinition d s.bindings).map (·.name)).Nodup
  rw [names_addDefinition]
  split
  · exact h
  · rename_i hnot
    refine List.nodup_append.mpr ⟨h, by simp, ?_⟩
    intro a ha b hb he
    rw [List.mem_singleton] at hb
    exact hnot (hb ▸ he ▸ ha)

@[simp] theorem names_resolve (s : Scope) (r : Reference) : (s.resolve r).names = s.names :=
  names_addReference _ s.bindings

@[simp] theorem names_pass (s : Scope) (r : Reference) : (s.pass r).names = s.names := rfl

@[simp] theorem names_adopt (s : Scope) (child : Nat) : (s.adopt child).names = s.names := rfl

/-- Where names are distinct, a binding is the one found by its name. -/
theorem binding?_of_mem {s : Scope} (h : s.names.Nodup) {b : Binding} (hb : b ∈ s.bindings) :
    s.binding? b.name = some b := by
  unfold binding? names at *
  revert h hb
  induction s.bindings with
  | nil => intro _ hb; cases hb
  | cons c rest ih =>
    intro h hb
    obtain ⟨hnot, hrest⟩ := List.nodup_cons.mp h
    rcases List.mem_cons.mp hb with rfl | hb
    · simp
    · have hne : c.name ≠ b.name := by
        intro he
        exact hnot (List.mem_map.mpr ⟨b, hb, he.symm⟩)
      rw [List.find?_cons, show (c.name == b.name) = false from by simpa using hne]
      exact ih hrest hb

end Scope

namespace ScopeTree

/-- Whether the scope of an id declares a name. -/
def declares (t : ScopeTree) (id : Nat) (name : String) : Bool :=
  (t.binding? id name).isSome

/-- The parent of the scope of an id. -/
def parent? (t : ScopeTree) (id : Nat) : Option ScopeId := (t.scope? id).bind (·.parent)

theorem declares_of_scope {t : ScopeTree} {id : Nat} {s : Scope} (h : t.scope? id = some s)
    (name : String) : t.declares id name = s.declares name := by
  simp [declares, binding?, h, Scope.declares]

theorem parent?_of_scope {t : ScopeTree} {id : Nat} {s : Scope} (h : t.scope? id = some s) :
    t.parent? id = s.parent := by
  simp [parent?, h]

theorem scope?_isSome {t : ScopeTree} {id : Nat} (h : id < t.size) :
    ∃ s, t.scope? id = some s :=
  ⟨t.scopes[id], List.getElem?_eq_getElem h⟩

theorem lt_size {t : ScopeTree} {id : Nat} {s : Scope} (h : t.scope? id = some s) :
    id < t.size :=
  (List.getElem?_eq_some_iff.mp h).1

theorem scope?_none {t : ScopeTree} {id : Nat} (h : t.size ≤ id) : t.scope? id = none :=
  List.getElem?_eq_none h

/-! ### One scope of a tree -/

@[simp] theorem size_update (t : ScopeTree) (id : Nat) (f : Scope → Scope) :
    (t.update id f).size = t.size := by
  simp [size, update]

theorem scope?_update (t : ScopeTree) (id : Nat) (f : Scope → Scope) (i : Nat) :
    (t.update id f).scope? i = (t.scope? i).map fun s => if id = i then f s else s := by
  show (t.scopes.modify id f)[i]? = _
  rw [List.getElem?_modify]
  by_cases h : id = i <;> simp [h, scope?]

/-- The scope of an id is an old one, or what the update makes of it. -/
theorem scope?_update_cases {t : ScopeTree} {id : Nat} {f : Scope → Scope} {i : Nat} {s : Scope}
    (hs : (t.update id f).scope? i = some s) :
    ∃ s₀, t.scope? i = some s₀ ∧ (s = s₀ ∨ s = f s₀) := by
  rw [scope?_update] at hs
  obtain ⟨s₀, hs₀, rfl⟩ := Option.map_eq_some_iff.mp hs
  refine ⟨s₀, hs₀, ?_⟩
  by_cases hi : id = i <;> simp [hi]

theorem update_update (t : ScopeTree) (id : Nat) (f g : Scope → Scope) :
    (t.update id f).update id g = t.update id (g ∘ f) := by
  simp [update, List.modify_modify_eq]

@[simp] theorem size_add (t : ScopeTree) (parent : Nat) (kind : ScopeKind) (span : Span) :
    (t.add parent kind span).size = t.size + 1 := by
  simp [add, size, update]

/-- The new scope is in place when the parent is changed, so it may be that. -/
theorem scope?_add_eq (t : ScopeTree) (parent : Nat) (kind : ScopeKind) (span : Span) (i : Nat) :
    (t.add parent kind span).scope? i =
      (if i = t.size then some (Scope.empty t.size kind (some parent) span) else t.scope? i).map
        fun s => if parent = i then s.adopt t.size else s := by
  unfold add
  rw [scope?_update]
  congr 1
  show (t.scopes ++ [_])[i]? = if i = t.scopes.length then _ else t.scopes[i]?
  rcases Nat.lt_trichotomy i t.scopes.length with hlt | rfl | hgt
  · rw [if_neg (Nat.ne_of_lt hlt), List.getElem?_append_left hlt]
  · rw [if_pos rfl, List.getElem?_concat_length]
  · rw [if_neg (Nat.ne_of_gt hgt), List.getElem?_eq_none (Nat.le_of_lt hgt)]
    exact List.getElem?_eq_none (by rw [List.length_append]; exact hgt)

theorem scope?_add {t : ScopeTree} {parent : Nat} (h : parent < t.size) (kind : ScopeKind)
    (span : Span) (i : Nat) :
    (t.add parent kind span).scope? i =
      if i = t.size then some (Scope.empty t.size kind (some parent) span)
      else (t.scope? i).map fun s => if parent = i then s.adopt t.size else s := by
  rw [scope?_add_eq]
  by_cases hi : i = t.size
  · have hne : ¬ parent = i := fun he => Nat.ne_of_lt h (he.trans hi)
    rw [if_pos hi, if_pos hi, Option.map_some, if_neg hne]
  · rw [if_neg hi, if_neg hi]

/-- An update that keeps parents keeps every parent. -/
theorem parent?_update {t : ScopeTree} {id : Nat} {f : Scope → Scope}
    (h : ∀ s, (f s).parent = s.parent) (i : Nat) :
    (t.update id f).parent? i = t.parent? i := by
  unfold parent?
  rw [scope?_update]
  cases t.scope? i with
  | none => rfl
  | some s => by_cases hi : id = i <;> simp [hi, h]

theorem parent?_add (t : ScopeTree) (parent : Nat) (kind : ScopeKind) (span : Span) (i : Nat) :
    (t.add parent kind span).parent? i = if i = t.size then some parent else t.parent? i := by
  unfold parent?
  rw [scope?_add_eq]
  by_cases hi : i = t.size
  · rw [if_pos hi, if_pos hi, Option.map_some, Option.bind_some]
    split <;> rfl
  · rw [if_neg hi, if_neg hi]
    cases t.scope? i with
    | none => rfl
    | some s => by_cases hp : parent = i <;> simp [hp, Scope.adopt]

/-- An update that keeps what a scope declares keeps what every scope declares. -/
theorem declares_update {t : ScopeTree} {id : Nat} {f : Scope → Scope} {name : String}
    (h : ∀ s, (f s).declares name = s.declares name) (i : Nat) :
    (t.update id f).declares i name = t.declares i name := by
  unfold declares binding?
  rw [scope?_update]
  cases t.scope? i with
  | none => rfl
  | some s =>
    by_cases hi : id = i
    · simpa [hi, Scope.declares] using h s
    · simp [hi]

theorem declares_add {t : ScopeTree} {parent : Nat} (h : parent < t.size) (kind : ScopeKind)
    (span : Span) (i : Nat) (name : String) :
    (t.add parent kind span).declares i name = t.declares i name := by
  unfold declares binding?
  rw [scope?_add h]
  by_cases hi : i = t.size
  · simp [hi, scope?_none (Nat.le_refl t.size), Scope.empty, Scope.binding?]
  · rw [if_neg hi]
    cases t.scope? i with
    | none => rfl
    | some s => by_cases hp : parent = i <;> simp [hp]

/-! ### All parents -/

/-- The parents of the scopes, by id. -/
def parents (t : ScopeTree) : List (Option ScopeId) := t.scopes.map (·.parent)

theorem parents_update (t : ScopeTree) {f : Scope → Scope} (hf : ∀ s, (f s).parent = s.parent)
    (id : Nat) : (t.update id f).parents = t.parents := by
  apply List.ext_getElem?
  intro i
  show ((t.scopes.modify id f).map _)[i]? = (t.scopes.map _)[i]?
  rw [List.getElem?_map, List.getElem?_map, List.getElem?_modify]
  cases t.scopes[i]? with
  | none => rfl
  | some s => by_cases hi : id = i <;> simp [hi, hf]

theorem parents_add (t : ScopeTree) (parent : Nat) (kind : ScopeKind) (span : Span) :
    (t.add parent kind span).parents = t.parents ++ [some parent] := by
  rw [add, parents_update (f := (·.adopt t.size)) _ fun _ => rfl]
  simp [parents, Scope.empty]

theorem parent?_eq_parents (t : ScopeTree) (i : Nat) : t.parent? i = (t.parents[i]?).join := by
  rw [parents, List.getElem?_map, parent?, scope?]
  cases t.scopes[i]? <;> rfl

end ScopeTree

end ScopeLint
