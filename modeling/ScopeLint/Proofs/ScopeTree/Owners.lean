import Mathlib.Data.List.Find
import ScopeLint.Proofs.ScopeTree.Chain

/-! # The scope that a definition goes to

A definition that hoists goes to the first variable scope on the chain of the scope it
is written in, any other to that scope itself (`ScopeTree.owner?`).  The answer stays
the same while the tree grows, for a scope keeps its kind and its chain
(`ScopeTree.Grows.owner?`).
-/

namespace ScopeLint

namespace ScopeTree

/-! ### Kinds -/

/-- The kind of the scope of an id. -/
def kind? (t : ScopeTree) (id : Nat) : Option ScopeKind := (t.scope? id).map (·.kind)

variable {t t' t'' : ScopeTree}

theorem kind?_of_scope {id : Nat} {s : Scope} (h : t.scope? id = some s) :
    t.kind? id = some s.kind := by
  rw [kind?, h]
  rfl

theorem lt_size_of_kind? {id : Nat} {kind : ScopeKind} (h : t.kind? id = some kind) :
    id < t.size := by
  obtain ⟨s, hs, _⟩ := Option.map_eq_some_iff.mp h
  exact lt_size hs

theorem kind?_update {f : Scope → Scope} (hf : ∀ s, (f s).kind = s.kind) (id i : Nat) :
    (t.update id f).kind? i = t.kind? i := by
  rw [kind?, kind?, scope?_update]
  cases t.scope? i with
  | none => rfl
  | some s => by_cases hi : id = i <;> simp [hi, hf]

theorem kind?_add {parent : Nat} (h : parent < t.size) (kind : ScopeKind) (span : Span) (i : Nat) :
    (t.add parent kind span).kind? i = if i = t.size then some kind else t.kind? i := by
  rw [kind?, kind?, scope?_add h]
  by_cases hi : i = t.size
  · simp [hi, Scope.empty]
  · rw [if_neg hi, if_neg hi]
    cases t.scope? i with
    | none => rfl
    | some s => by_cases hp : parent = i <;> simp [hp, Scope.adopt]

/-! ### Owners -/

/-- Whether declarations by `var` are recorded in the scope of an id. -/
def isVariableScope (t : ScopeTree) (id : Nat) : Bool :=
  (t.kind? id).any (·.isVariableScope)

/-- **The scope that a definition goes to** when it is written in the scope `site`. -/
def owner? (t : ScopeTree) (site : Nat) (kind : DefinitionKind) : Option ScopeId :=
  if kind.hoists then (t.chain site).find? t.isVariableScope else some site

/-- In a tree whose outermost scope is the global one, declarations by `var` stop at
variable scopes only. -/
theorem Formed.stopsVar_eq (h : t.Formed) (hroot : t.kind? rootId = some .global) :
    t.stopsVar = t.isVariableScope := by
  funext i
  rw [stopsVar, isVariableScope]
  cases hs : t.scope? i with
  | none => rw [kind?, hs]; rfl
  | some s =>
    rw [kind?_of_scope hs, Option.any_some, Option.any_some]
    by_cases hi : i = 0
    · subst hi
      have hkind : s.kind = .global := Option.some.inj ((kind?_of_scope hs).symm.trans hroot)
      rw [hkind]
      rfl
    · obtain ⟨p, hp⟩ := h.inner i (Nat.pos_of_ne_zero hi) (lt_size hs)
      rw [parent?_of_scope hs] at hp
      rw [hp]
      exact Bool.or_false _

/-! ### Growing trees -/

/-- **A tree grows into another** when its scopes keep their parents and their kinds. -/
structure Grows (t t' : ScopeTree) : Prop where
  formed : t.Formed
  formed' : t'.Formed
  size_le : t.size ≤ t'.size
  parent : ∀ i : Nat, i < t.size → t'.parent? i = t.parent? i
  kind : ∀ i : Nat, i < t.size → t'.kind? i = t.kind? i

theorem Grows.refl (h : t.Formed) : t.Grows t :=
  ⟨h, h, Nat.le_refl _, fun _ _ => rfl, fun _ _ => rfl⟩

theorem Grows.trans (h : t.Grows t') (h' : t'.Grows t'') : t.Grows t'' where
  formed := h.formed
  formed' := h'.formed'
  size_le := Nat.le_trans h.size_le h'.size_le
  parent := fun i hi =>
    (h'.parent i (Nat.lt_of_lt_of_le hi h.size_le)).trans (h.parent i hi)
  kind := fun i hi => (h'.kind i (Nat.lt_of_lt_of_le hi h.size_le)).trans (h.kind i hi)

theorem Grows.add (h : t.Formed) {parent : Nat} (hp : parent < t.size) (kind : ScopeKind)
    (span : Span) : t.Grows (t.add parent kind span) where
  formed := h
  formed' := h.add hp kind span
  size_le := by
    rw [size_add]
    exact Nat.le_succ _
  parent := fun i hi => by rw [parent?_add, if_neg (Nat.ne_of_lt hi)]
  kind := fun i hi => by rw [kind?_add hp, if_neg (Nat.ne_of_lt hi)]

/-- **Definitions go where they went before.** -/
theorem Grows.owner? (h : t.Grows t') {site : Nat} (hsite : site < t.size)
    (kind : DefinitionKind) : t'.owner? site kind = t.owner? site kind := by
  have hchain : t'.chain site = t.chain site :=
    h.formed.chain_congr h.formed' h.size_le h.parent hsite
  have hkind : ∀ i ∈ t.chain site, t'.isVariableScope i = t.isVariableScope i := by
    intro i hi
    have hlt : i < t.size := Nat.lt_of_le_of_lt (h.formed.le_of_mem_chain hsite hi) hsite
    rw [isVariableScope, isVariableScope, h.kind i hlt]
  rw [ScopeTree.owner?, ScopeTree.owner?, hchain, List.find?_congr hkind]

end ScopeTree

end ScopeLint
