import ScopeLint.Proofs.ScopeTree.Inspection

/-! # A module's scope around everything

What a script declares globally a module declares in a scope of its own, right
below the global one.  The tree of a module is that of the script with this scope
inserted (`ScopeTree.inModule`): all ids are one greater, the global bindings have
gone to the new scope, and whatever passes through one of the two passes through
both.  An operation on the tree of the script is the same operation on the tree of
the module, at the id one greater.
-/

namespace ScopeLint

/-- A reference among scopes whose ids are one greater. -/
def Reference.shift (r : Reference) : Reference :=
  { r with origin := r.origin + 1, resolved := r.resolved.map (· + 1) }

/-- A binding among scopes whose ids are one greater. -/
def Binding.shift (b : Binding) : Binding := { b with references := b.references.map .shift }

namespace Scope

/-- A scope whose ids are one greater, with another kind and parent. -/
def moved (kind : ScopeKind) (parent : Option ScopeId) (s : Scope) : Scope where
  id := s.id + 1
  kind
  parent
  span := s.span
  bindings := s.bindings.map .shift
  children := s.children.map (· + 1)
  through := s.through.map .shift

/-- A scope among scopes whose ids are one greater. -/
def shift (s : Scope) : Scope := s.moved s.kind (s.parent.map (· + 1))

/-- The scope of the module, which has what a script has globally. -/
def asModule (s : Scope) : Scope := s.moved .module (some ScopeTree.rootId)

/-- The global scope, when it holds only the scope of the module. -/
def aroundModule (s : Scope) : Scope :=
  { s with bindings := [], children := [ScopeTree.rootId + 1], through := s.through.map .shift }

/-- What `f` does to a scope, `g` does to the moved scope. -/
structure Shifts (f g : Scope → Scope) : Prop where
  moved : ∀ kind parent s, (f s).moved kind parent = g (s.moved kind parent)
  kind : ∀ s, (f s).kind = s.kind
  parent : ∀ s, (f s).parent = s.parent

theorem Shifts.shift {f g : Scope → Scope} (h : Shifts f g) (s : Scope) :
    (f s).shift = g s.shift := by
  rw [Scope.shift, h.kind, h.parent]
  exact h.moved s.kind _ s

theorem Shifts.asModule {f g : Scope → Scope} (h : Shifts f g) (s : Scope) :
    (f s).asModule = g s.asModule :=
  h.moved _ _ s

/-! ### One scope -/

theorem map_shift_addDefinition (d : Definition) : ∀ bs : List Binding,
    (addDefinition d bs).map .shift = addDefinition d (bs.map .shift)
  | [] => rfl
  | b :: rest => by
      rw [List.map_cons, addDefinition, addDefinition]
      by_cases hname : b.name = d.name.name
      · rw [if_pos hname, if_pos (show b.shift.name = _ from hname)]
        rfl
      · rw [if_neg hname, if_neg (show ¬ b.shift.name = _ from hname), List.map_cons,
          map_shift_addDefinition d rest]

theorem map_shift_addReference (r : Reference) : ∀ bs : List Binding,
    (addReference r bs).map .shift = addReference r.shift (bs.map .shift)
  | [] => rfl
  | b :: rest => by
      rw [List.map_cons, addReference, addReference]
      by_cases hname : b.name = r.name
      · rw [if_pos hname, if_pos (show b.shift.name = r.shift.name from hname), List.map_cons]
        congr 1
        simp [Binding.shift]
      · rw [if_neg hname, if_neg (show ¬ b.shift.name = r.shift.name from hname),
          List.map_cons, map_shift_addReference r rest]

theorem find?_map_shift (name : String) (bs : List Binding) :
    (bs.map Binding.shift).find? (·.name == name) =
      (bs.find? (·.name == name)).map Binding.shift := by
  rw [List.find?_map]
  rfl

theorem declares_moved (kind : ScopeKind) (parent : Option ScopeId) (s : Scope) (name : String) :
    (s.moved kind parent).declares name = s.declares name := by
  unfold declares binding? moved
  rw [find?_map_shift, Option.isSome_map]

theorem shifts_define (d : Definition) : Shifts (·.define d) (·.define d) where
  moved := fun kind parent s => by
    simp only [moved, define, map_shift_addDefinition]
  kind := fun _ => rfl
  parent := fun _ => rfl

theorem shifts_resolve (r : Reference) : Shifts (·.resolve r) (·.resolve r.shift) where
  moved := fun kind parent s => by
    simp only [moved, resolve, map_shift_addReference]
    rfl
  kind := fun _ => rfl
  parent := fun _ => rfl

theorem shifts_pass (r : Reference) : Shifts (·.pass r) (·.pass r.shift) where
  moved := fun kind parent s => by
    simp only [moved, pass, List.map_append, List.map_singleton]
  kind := fun _ => rfl
  parent := fun _ => rfl

theorem shifts_adopt (child : Nat) : Shifts (·.adopt child) (·.adopt (child + 1)) where
  moved := fun kind parent s => by
    simp only [moved, adopt, List.map_append, List.map_singleton]
  kind := fun _ => rfl
  parent := fun _ => rfl

end Scope

namespace ScopeTree

/-- **The tree of scopes with the scope of a module inserted** below the global
one. -/
def inModule (t : ScopeTree) : ScopeTree :=
  match t.scopes with
  | [] => t
  | root :: rest => ⟨root.aroundModule :: root.asModule :: rest.map .shift⟩

/-! ### Scopes by id -/

theorem size_inModule {t : ScopeTree} (h : 0 < t.size) : t.inModule.size = t.size + 1 := by
  obtain ⟨scopes⟩ := t
  cases scopes with
  | nil => exact absurd h (Nat.lt_irrefl _)
  | cons root rest => simp [inModule, size]

theorem scope?_inModule_root (t : ScopeTree) :
    t.inModule.scope? rootId = (t.scope? rootId).map .aroundModule := by
  obtain ⟨scopes⟩ := t
  cases scopes <;> rfl

theorem scope?_inModule (t : ScopeTree) (i : Nat) :
    t.inModule.scope? (i + 1) =
      (t.scope? i).map fun s => if i = 0 then s.asModule else s.shift := by
  obtain ⟨scopes⟩ := t
  cases scopes with
  | nil => rfl
  | cons root rest =>
    cases i with
    | zero => rfl
    | succ i =>
      show (rest.map Scope.shift)[i]? = (rest[i]?).map _
      rw [List.getElem?_map]
      rfl

theorem declares_inModule (t : ScopeTree) (i : Nat) (name : String) :
    t.inModule.declares (i + 1) name = t.declares i name := by
  have hscope := scope?_inModule t i
  cases hs : t.scope? i with
  | none =>
    rw [hs, Option.map_none] at hscope
    rw [declares, declares, binding?, binding?, hscope, hs]
  | some s =>
    rw [hs, Option.map_some] at hscope
    rw [declares_of_scope hscope, declares_of_scope hs]
    split
    · exact Scope.declares_moved .module _ s name
    · exact Scope.declares_moved s.kind _ s name

/-! ### Operations -/

/-- A change of a scope is a change of the moved scope.  A change of the global scope
must leave alone what stays global. -/
theorem inModule_update (t : ScopeTree) {f g : Scope → Scope} (h : Scope.Shifts f g) (id : Nat)
    (hroot : id = 0 → ∀ s, (f s).aroundModule = s.aroundModule) :
    (t.update id f).inModule = t.inModule.update (id + 1) g := by
  have hrest : ∀ (scopes : List Scope) (i : Nat),
      (scopes.modify i f).map .shift = (scopes.map .shift).modify i g := by
    intro scopes i
    apply List.ext_getElem?
    intro j
    rw [List.getElem?_map, List.getElem?_modify, List.getElem?_modify, List.getElem?_map]
    cases scopes[j]? with
    | none => rfl
    | some s => by_cases hij : i = j <;> simp [hij, h.shift]
  obtain ⟨scopes⟩ := t
  cases scopes with
  | nil => simp [update, inModule]
  | cons root rest =>
    cases id with
    | zero =>
      show ScopeTree.mk ((f root).aroundModule :: (f root).asModule :: _) = _
      rw [hroot rfl, h.asModule]
      rfl
    | succ id =>
      show ScopeTree.mk (_ :: _ :: (rest.modify id f).map .shift) = _
      rw [hrest]
      rfl

/-- A change of the global scope of the script is one change of the scope of the
module, and one of the global scope around it. -/
theorem inModule_update_root {t : ScopeTree} {f g around : Scope → Scope} (h : Scope.Shifts f g)
    {s : Scope} (hs : t.scope? rootId = some s)
    (haround : (f s).aroundModule = around s.aroundModule) :
    (t.update rootId f).inModule =
      (t.inModule.update (rootId + 1) g).update rootId around := by
  obtain ⟨scopes⟩ := t
  cases scopes with
  | nil => cases hs
  | cons root rest =>
    obtain rfl : root = s := Option.some.inj hs
    show ScopeTree.mk ((f root).aroundModule :: (f root).asModule :: _) = _
    rw [haround, h.asModule]
    rfl

/-- A scope opened in a scope is opened in the moved scope. -/
theorem inModule_add {t : ScopeTree} (h : 0 < t.size) (parent : Nat) (kind : ScopeKind)
    (span : Span) :
    (t.add parent kind span).inModule = t.inModule.add (parent + 1) kind span := by
  have hnew : (⟨t.scopes ++ [Scope.empty t.size kind (some parent) span]⟩ :
      ScopeTree).inModule =
        ⟨t.inModule.scopes ++ [Scope.empty t.inModule.size kind (some (parent + 1)) span]⟩ := by
    rw [size_inModule h]
    obtain ⟨scopes⟩ := t
    cases scopes with
    | nil => exact absurd h (Nat.lt_irrefl _)
    | cons root rest =>
      show ScopeTree.mk (_ :: _ :: (rest ++ [_]).map .shift) = _
      rw [List.map_append]
      rfl
  rw [add, inModule_update _ (Scope.shifts_adopt t.size) parent (fun _ _ => rfl), hnew, add,
    size_inModule h]

/-! ### Variable scopes -/

/-- Declarations by `var` stop at the scope of the module where they stopped at the
global one. -/
theorem variableScopeWithin?_inModule {t : ScopeTree} (h : t.Formed) (fuel id : Nat) :
    t.inModule.variableScopeWithin? fuel (id + 1) =
      (t.variableScopeWithin? fuel id).map (· + 1) := by
  induction fuel generalizing id with
  | zero => rfl
  | succ fuel ih =>
    unfold variableScopeWithin?
    rw [scope?_inModule]
    cases hs : t.scope? id with
    | none => rfl
    | some s =>
      by_cases hid : id = 0
      · subst hid
        have hnone : s.parent = none := by
          rw [← parent?_of_scope hs]
          exact h.parent?_root
        simp [Scope.asModule, Scope.moved, ScopeKind.isVariableScope, hnone]
      · simp only [Option.map_some, if_neg hid, Option.bind_eq_bind, Option.bind_some,
          Scope.shift, Scope.moved]
        cases s.kind.isVariableScope with
        | true => rfl
        | false =>
          cases s.parent with
          | none => rfl
          | some p => exact ih p

theorem variableScope?_inModule {t : ScopeTree} (h : t.Formed) {id : Nat} (hid : id < t.size) :
    t.inModule.variableScope? (id + 1) = (t.variableScope? id).map (· + 1) := by
  rw [variableScope?, size_inModule h.pos, variableScopeWithin?_inModule h,
    h.variableScopeWithin?_eq (Nat.lt_succ_of_lt hid) hid, h.variableScope?_eq hid]

/-! ### The inspection -/

theorem childrenOf_inModule (t : ScopeTree) (id : Nat) :
    t.inModule.childrenOf (id + 1) = (t.childrenOf id).map (· + 1) := by
  rw [childrenOf, childrenOf, scope?_inModule]
  cases t.scope? id with
  | none => rfl
  | some s => by_cases hid : id = 0 <;> simp [hid, Scope.asModule, Scope.shift, Scope.moved]

theorem insideWithin_inModule (t : ScopeTree) (depth id : Nat) :
    t.inModule.insideWithin depth (id + 1) = (t.insideWithin depth id).map (· + 1) := by
  induction depth generalizing id with
  | zero => rfl
  | succ depth ih =>
    rw [insideWithin, insideWithin, childrenOf_inModule, List.map_cons, ← List.map_reverse,
      List.flatMap_map, List.map_flatMap]
    congr 1
    exact List.flatMap_congr fun child _ => ih child

/-- In the module the global scope comes first, and then all as in the script. -/
theorem inside_inModule {t : ScopeTree} (h : t.Formed) (h' : t.inModule.Formed) :
    t.inModule.inside rootId = rootId :: (t.inside rootId).map (· + 1) := by
  have hsize := size_inModule h.pos
  obtain ⟨root, hroot⟩ := scope?_isSome h.pos
  have hchildren : t.inModule.childrenOf rootId = [rootId + 1] := by
    rw [childrenOf, scope?_inModule_root, show t.scope? rootId = some root from hroot]
    rfl
  have hroot' : rootId + 1 < t.inModule.size := by
    rw [hsize]
    exact Nat.succ_lt_succ h.pos
  -- There is one scope more, and so one level more than the descent needs.
  show t.inModule.inside 0 = _
  rw [h'.inside_eq h'.pos, show t.inModule.childrenOf 0 = _ from hchildren,
    List.reverse_singleton, List.flatMap_singleton, inside,
    h'.insideWithin_eq (n := t.size) (Nat.sub_le _ _) (by omega) hroot', insideWithin_inModule]
  rfl

end ScopeTree

end ScopeLint
