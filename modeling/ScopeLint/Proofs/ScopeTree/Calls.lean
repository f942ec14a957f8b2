import Mathlib.Data.List.Perm.Basic
import ScopeLint.Proofs.ScopeTree.Inspection
import ScopeLint.Proofs.ScopeTree.Owners
import ScopeLint.Proofs.Walk.Bindings

/-! # Trees built by calls

A caller builds a scope tree by the operations on unchecked ids, in any order
(`ScopeTree.runAll`).  Each either opens a scope or changes one without moving it
(`Call.run_cases`), so whatever the calls, the arena stays linked and its bindings hold
what belongs to them: validation accepts it.

An id is refused when no scope has it, but a scope is in place before its parent is
looked up.  So it may be opened in itself, and then no inspection meets it and nothing
ends a search for the variable scope around it.  The arena is a tree rooted at the
global scope just when no call does this (`tree_iff_inPlace`).
-/

namespace ScopeLint

namespace ScopeTree

/-- One operation of a caller. -/
inductive Call where
  | add (parent : ScopeId) (kind : ScopeKind) (span : Span)
  | define (id : ScopeId) (d : Definition)
  | resolve (id : ScopeId) (r : Reference)
  | pass (id : ScopeId) (r : Reference)
  deriving DecidableEq, Repr

/-- The tree after a call.  A use that the scope does not resolve is handed back, and the
tree stays as it is. -/
def Call.run (t : ScopeTree) : Call → Except OutOfRange ScopeTree
  | add parent kind span => (Checked.add t parent kind span).map (·.1)
  | define id d => Checked.define t id d
  | resolve id r => (Checked.resolve? t id r).map (·.getD t)
  | pass id r => Checked.pass t id r

/-- The tree after calls, when none of them is refused. -/
def runAll (t : ScopeTree) : List Call → Except OutOfRange ScopeTree
  | [] => .ok t
  | call :: rest =>
    match call.run t with
    | .ok t' => t'.runAll rest
    | .error e => .error e

/-- The scope that a call opens one in. -/
def Call.opensIn? : Call → Option ScopeId
  | add parent .. => some parent
  | _ => none

/-- The scopes that calls open one in, in order. -/
def openedIn (calls : List Call) : List ScopeId := calls.filterMap Call.opensIn?

theorem openedIn_append (calls more : List Call) :
    openedIn (calls ++ more) = openedIn calls ++ openedIn more :=
  List.filterMap_append ..

/-- **Scopes are opened in scopes that are there before**: the first in the global scope
alone, the next in one of two, and so on. -/
def InPlace (calls : List Call) : Prop :=
  ∀ i (h : i < (openedIn calls).length), (openedIn calls)[i] ≤ i

instance (calls : List Call) : Decidable (InPlace calls) :=
  inferInstanceAs (Decidable (∀ i (h : i < (openedIn calls).length), (openedIn calls)[i] ≤ i))

variable {t t' : ScopeTree}

/-! ### What a call does -/

/-- What a call may do to a scope: it leaves it where it is, and its bindings hold what
belongs to them. -/
structure Modest (f : Scope → Scope) : Prop extends Mild f where
  kind : ∀ s, (f s).kind = s.kind
  sound : ∀ s : Scope, s.Sound → (f s).Sound

theorem Modest.define (d : Definition) : Modest (·.define d) where
  toMild := .define d
  kind := fun _ => rfl
  sound := fun _ hs => hs.define d

theorem Modest.resolve (r : Reference) : Modest (·.resolve r) where
  id := fun _ => rfl
  parent := fun _ => rfl
  children := fun _ => rfl
  names := fun s hs => (Scope.names_resolve s r).symm ▸ hs
  kind := fun _ => rfl
  sound := fun _ hs => hs.resolve r

theorem Modest.pass (r : Reference) : Modest (·.pass r) where
  id := fun _ => rfl
  parent := fun _ => rfl
  children := fun _ => rfl
  names := fun _ hs => hs
  kind := fun _ => rfl
  sound := fun _ hs => hs

theorem exists_of_map_eq_ok {ε α β : Type} {e : Except ε α} {f : α → β} {b : β}
    (h : e.map f = .ok b) : ∃ a, e = .ok a ∧ f a = b := by
  cases e with
  | error _ => cases h
  | ok a => exact ⟨a, rfl, Except.ok.inj h⟩

/-- **A call opens a scope**, in one that is there or in the new one, **or changes one
scope modestly, or nothing.** -/
theorem Call.run_cases {call : Call} (h : call.run t = .ok t') :
    (∃ parent kind span, call = .add parent kind span ∧ parent ≤ t.size ∧
      t' = t.add parent kind span) ∨
    (call.opensIn? = none ∧ (t' = t ∨ ∃ id f, Modest f ∧ t' = t.update id f)) := by
  cases call with
  | add parent kind span =>
    rw [run, Checked.add] at h
    by_cases hp : parent < t.size + 1
    · rw [if_pos hp] at h
      exact .inl ⟨parent, kind, span, rfl, Nat.le_of_lt_succ hp, (Except.ok.inj h).symm⟩
    · rw [if_neg hp] at h
      cases h
  | define id d =>
    obtain ⟨_, _, rfl⟩ := exists_of_map_eq_ok h
    exact .inr ⟨rfl, .inr ⟨id, _, .define d, rfl⟩⟩
  | resolve id r =>
    obtain ⟨_, hresolve, rfl⟩ := exists_of_map_eq_ok h
    obtain ⟨_, _, rfl⟩ := exists_of_map_eq_ok hresolve
    refine .inr ⟨rfl, ?_⟩
    rw [ScopeTree.resolve?]
    cases t.binding? id r.name with
    | none => exact .inl rfl
    | some b => exact .inr ⟨id, _, .resolve r, rfl⟩
  | pass id r =>
    obtain ⟨_, _, rfl⟩ := exists_of_map_eq_ok h
    exact .inr ⟨rfl, .inr ⟨id, _, .pass r, rfl⟩⟩

/-! ### What all calls keep -/

/-- **What calls have made of the tree of the global scope.** -/
structure Made (calls : List Call) (t : ScopeTree) : Prop where
  linked : t.Linked
  sound : t.Sound
  global : t.kind? rootId = some .global
  parents : t.parents = none :: (openedIn calls).map some
  le : ∀ id p : Nat, t.parent? id = some p → p ≤ id
  formed : InPlace calls → t.Formed

namespace Made

theorem ofSpan (span : Span) : Made [] (ofSpan span) where
  linked := (formed_ofSpan span).linked
  sound := by
    intro i s hs
    cases i with
    | zero =>
      rw [← Option.some.inj hs]
      exact fun b hb => absurd hb List.not_mem_nil
    | succ i => cases hs
  global := rfl
  parents := rfl
  le := fun id p hp => Nat.le_of_lt ((formed_ofSpan span).parent_lt id p hp)
  formed := fun _ => formed_ofSpan span

variable {calls : List Call}

theorem size (h : Made calls t) : t.size = (openedIn calls).length + 1 := by
  have hlength : t.parents.length = t.size := List.length_map _
  rw [← hlength, h.parents, List.length_cons, List.length_map]

theorem parent?_succ (h : Made calls t) (i : Nat) : t.parent? (i + 1) = (openedIn calls)[i]? := by
  rw [parent?_eq_parents, h.parents, List.getElem?_cons_succ, List.getElem?_map]
  cases (openedIn calls)[i]? <;> rfl

theorem update (h : Made calls t) {f : Scope → Scope} (hf : Modest f) (id : Nat) :
    Made calls (t.update id f) where
  linked := h.linked.update hf.toMild id
  sound := h.sound.update hf.sound id
  global := (kind?_update hf.kind id rootId).trans h.global
  parents := (parents_update t hf.parent id).trans h.parents
  le := by
    intro i p hp
    rw [parent?_update hf.parent] at hp
    exact h.le i p hp
  formed := fun hplace => (h.formed hplace).update hf.toMild id

/-- Calls in place were so before the last of them, which opened its scope in one that was
there. -/
theorem inPlace_add (h : Made calls t) {parent : Nat} {kind : ScopeKind} {span : Span}
    (hplace : InPlace (calls ++ [.add parent kind span])) :
    InPlace calls ∧ parent < t.size := by
  have hopened : openedIn (calls ++ [.add parent kind span]) = openedIn calls ++ [parent] :=
    openedIn_append ..
  simp only [InPlace, hopened, List.length_append, List.length_singleton] at hplace
  constructor
  · intro i hi
    have hle := hplace i (Nat.lt_succ_of_lt hi)
    rw [List.getElem_append_left hi] at hle
    exact hle
  · have hle := hplace _ (Nat.lt_succ_self _)
    rw [List.getElem_concat_length rfl] at hle
    rw [h.size]
    exact Nat.lt_succ_of_le hle

theorem add (h : Made calls t) {parent : Nat} (hp : parent ≤ t.size) (kind : ScopeKind)
    (span : Span) : Made (calls ++ [.add parent kind span]) (t.add parent kind span) where
  linked := h.linked.add parent kind span
  sound := h.sound.add parent kind span
  global := by
    obtain ⟨s, hs, hkind⟩ := Option.map_eq_some_iff.mp h.global
    have hne : rootId ≠ t.size := Nat.ne_of_lt h.linked.pos
    rw [kind?, scope?_add_eq, if_neg hne, hs, ← hkind, Option.map_some, Option.map_some]
    split <;> rfl
  parents := by
    rw [parents_add, h.parents, openedIn_append, List.map_append]
    rfl
  le := by
    intro i p hpi
    rw [parent?_add] at hpi
    split at hpi
    · rename_i hi
      rw [← Option.some.inj hpi, hi]
      exact hp
    · exact h.le i p hpi
  formed := by
    intro hplace
    obtain ⟨hbefore, hlt⟩ := h.inPlace_add hplace
    exact (h.formed hbefore).add hlt kind span

/-- One more call. -/
theorem run (h : Made calls t) {call : Call} (hrun : call.run t = .ok t') :
    Made (calls ++ [call]) t' := by
  rcases Call.run_cases hrun with ⟨parent, kind, span, rfl, hp, rfl⟩ | ⟨hnone, hchange⟩
  · exact h.add hp kind span
  · -- The other calls open no scope, so what is told of the openings stays as it is.
    have hopened : openedIn (calls ++ [call]) = openedIn calls := by
      have hlast : openedIn [call] = [] := List.filterMap_cons_none hnone
      rw [openedIn_append, hlast, List.append_nil]
    have hsame : Made calls t' → Made (calls ++ [call]) t' := by
      intro h'
      refine { h' with parents := ?_, formed := fun hplace => h'.formed ?_ }
      · rw [hopened]
        exact h'.parents
      · simp only [InPlace, hopened] at hplace
        exact hplace
    rcases hchange with rfl | ⟨id, f, hf, rfl⟩
    · exact hsame h
    · exact hsame (h.update hf id)

/-- More calls. -/
theorem runAll : ∀ (more : List Call) {calls : List Call} {t : ScopeTree}, Made calls t →
    t.runAll more = .ok t' → Made (calls ++ more) t'
  | [], calls, t, h, hrun => by
      rw [List.append_nil, ← Except.ok.inj hrun]
      exact h
  | call :: more, calls, t, h, hrun => by
      rw [ScopeTree.runAll] at hrun
      cases hcall : call.run t with
      | error e =>
        rw [hcall] at hrun
        cases hrun
      | ok next =>
        rw [hcall] at hrun
        have hmore := Made.runAll more (h.run hcall) hrun
        rw [List.append_assoc] at hmore
        exact hmore

/-- **Whatever the calls, validation accepts what they made.** -/
theorem validate_eq (h : Made calls t) : t.validate = .ok () := h.linked.validate_eq h.sound

/-! ### Trees rooted at the global scope -/

/-- Parents are older than their children just when the calls are in place. -/
theorem parent_lt_iff (h : Made calls t) :
    (∀ id p : Nat, t.parent? id = some p → p < id) ↔ InPlace calls := by
  constructor
  · intro hlt i hi
    have hp := (h.parent?_succ i).trans (List.getElem?_eq_getElem hi)
    exact Nat.le_of_lt_succ (hlt (i + 1) _ hp)
  · intro hplace id p hp
    exact (h.formed hplace).parent_lt id p hp

/-- Where some parent is not older than its child, a scope is its own parent. -/
theorem exists_own_parent (h : Made calls t) (hplace : ¬ InPlace calls) :
    ∃ id : Nat, t.parent? id = some id := by
  rw [← h.parent_lt_iff] at hplace
  push Not at hplace
  obtain ⟨id, p, hp, hge⟩ := hplace
  exact ⟨id, hp.trans (congrArg some (Nat.le_antisymm (h.le id p hp) hge))⟩

/-- Every scope is met once just when the calls are in place. -/
theorem perm_iff (h : Made calls t) :
    (∃ ids, t.RightToLeft [rootId] ids ∧ ids.Perm (List.range t.size)) ↔ InPlace calls := by
  constructor
  · rintro ⟨ids, hids, hperm⟩
    by_contra hplace
    obtain ⟨id, hown⟩ := h.exists_own_parent hplace
    have hmem := hperm.mem_iff.mpr (List.mem_range.mpr (lt_of_parent hown))
    exact h.linked.not_mem_of_own_parent hids hown hmem
  · intro hplace
    have hformed := h.formed hplace
    obtain ⟨ids, horder, hperm⟩ := hformed.inspectionOrder_perm
    obtain ⟨hids, _⟩ := inspectFrom_eq_ok_iff.mp horder
    exact ⟨ids, hids, hperm⟩

/-- The search for a variable scope ends at the nearest one on the chain. -/
theorem variableScope_eq (h : Made calls t) (hplace : InPlace calls) {id : Nat}
    (hid : id < t.size) : ∃ v : ScopeId, (t.chain id).find? t.isVariableScope = some v ∧
      ∀ fuel, t.size ≤ fuel → t.variableScopeWithin? fuel id = some v := by
  have hformed := h.formed hplace
  obtain ⟨v, hv, _⟩ := hformed.variableScope?_mem hid
  have hchain := hformed.variableScope?_eq hid
  rw [hv] at hchain
  refine ⟨v, ?_, fun fuel hfuel => ?_⟩
  · rw [← hformed.stopsVar_eq h.global]
    exact hchain.symm
  · rw [hformed.variableScopeWithin?_eq (Nat.lt_of_lt_of_le hid hfuel) hid]
    exact hchain.symm

end Made

/-- A search for a variable scope does not end in a scope that is its own parent and is
none. -/
theorem variableScopeWithin?_own_parent {id : Nat} (hown : t.parent? id = some id)
    (hkind : t.isVariableScope id = false) : ∀ fuel, t.variableScopeWithin? fuel id = none
  | 0 => rfl
  | fuel + 1 => by
      have hrest := variableScopeWithin?_own_parent hown hkind fuel
      obtain ⟨s, hs, hparent⟩ := Option.bind_eq_some_iff.mp hown
      rw [isVariableScope, kind?_of_scope hs, Option.any_some] at hkind
      simp [variableScopeWithin?, hs, hkind, hparent, hrest]

/-- **What calls make is a tree rooted at the global scope just when no scope is opened in
itself.**  Whatever the calls, a parent is no younger than its child and validation
accepts the arena.  Parents are older, every scope is met once on the ways down from the
global scope, and every search for a variable scope ends at the nearest one, if and only if
the calls are in place; a scope that is opened in itself is never met, and a search from
there ends only if it is a variable scope. -/
theorem tree_iff_inPlace {span : Span} {calls : List Call}
    (hrun : (ofSpan span).runAll calls = .ok t) :
    t.parents = none :: (openedIn calls).map some ∧
      (∀ id p : Nat, t.parent? id = some p → p ≤ id) ∧
      t.validate = .ok () ∧
      ((∀ id p : Nat, t.parent? id = some p → p < id) ↔ InPlace calls) ∧
      ((∃ ids, t.RightToLeft [rootId] ids ∧ ids.Perm (List.range t.size)) ↔ InPlace calls) ∧
      (InPlace calls → ∀ id < t.size, ∃ v : ScopeId,
        (t.chain id).find? t.isVariableScope = some v ∧
          ∀ fuel, t.size ≤ fuel → t.variableScopeWithin? fuel id = some v) ∧
      ∀ id : Nat, t.parent? id = some id →
        (∀ ids, t.RightToLeft [rootId] ids → id ∉ ids) ∧
          (t.isVariableScope id = false → ∀ fuel, t.variableScopeWithin? fuel id = none) := by
  have hmade : Made calls t := (Made.ofSpan span).runAll calls hrun
  refine ⟨hmade.parents, hmade.le, hmade.validate_eq, hmade.parent_lt_iff, hmade.perm_iff,
    fun hplace id hid => hmade.variableScope_eq hplace hid, fun id hown => ⟨?_, ?_⟩⟩
  · exact fun ids hids => hmade.linked.not_mem_of_own_parent hids hown
  · exact variableScopeWithin?_own_parent hown

/-- A function with two blocks in it, in the second of which a name is declared and used. -/
def nestedCalls : List Call :=
  let x : Syntax.Identifier := ⟨7, "undefined", .undefined, ⟨3, 12⟩, ⟨0, 3⟩⟩
  [.add 0 .function ⟨0, 20⟩, .add 1 .block ⟨1, 2⟩, .add 1 .block ⟨2, 19⟩,
    .define 3 ⟨x, .declared .byLet⟩, .resolve 3 ⟨x, .read, false, 3, none⟩,
    .resolve 2 ⟨x, .read, false, 2, none⟩, .pass 2 ⟨x, .read, false, 2, none⟩]

theorem tree_of_nestedCalls :
    ∃ t, (ofSpan ⟨0, 20⟩).runAll nestedCalls = .ok t ∧ t.validate = .ok () ∧
      (∃ ids, t.RightToLeft [rootId] ids ∧ ids.Perm (List.range t.size)) ∧
      ∀ id < t.size, ∃ v : ScopeId, (t.chain id).find? t.isVariableScope = some v ∧
        ∀ fuel, t.size ≤ fuel → t.variableScopeWithin? fuel id = some v := by
  obtain ⟨t, hrun⟩ : ∃ t, (ofSpan ⟨0, 20⟩).runAll nestedCalls = .ok t := ⟨_, rfl⟩
  have hplace : InPlace nestedCalls := by decide
  obtain ⟨_, _, hvalid, _, hmet, hsearch, _⟩ := tree_iff_inPlace hrun
  exact ⟨t, hrun, hvalid, hmet.mpr hplace, hsearch hplace⟩

/-- The first scope to be opened may be opened in itself: no call is refused and validation
accepts the arena, but its parent is not older, the inspection passes it by, and the
search for the variable scope around it runs out of scopes. -/
theorem scope_opened_in_itself :
    ∃ t, (ofSpan ⟨0, 9⟩).runAll [.add 1 .block ⟨0, 0⟩] = .ok t ∧ t.size = 2 ∧
      t.parent? 1 = some 1 ∧ t.validate = .ok () ∧ t.inspectionOrder = .ok [0] ∧
      t.variableScope? 1 = none :=
  ⟨_, rfl, rfl, rfl, rfl, rfl, rfl⟩

end ScopeTree

end ScopeLint
