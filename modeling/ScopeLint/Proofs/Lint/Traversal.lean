import ScopeLint.Proofs.Analysis.Reports
import ScopeLint.Proofs.ScopeTree.Calls

/-! # The rule on trees of any make

The rule inspects what it is given, be it the scope tree of a program or not.  On every
arena that validation accepts the inspection ends without a fault
(`inspection_of_validate`).  On every tree that calls in place have made it meets each
scope once, in right-to-left preorder, and the reports come in that order
(`reports_of_calls`).
-/

namespace ScopeLint

open ScopeTree

namespace ScopeTree

variable {t : ScopeTree}

/-- Ids that are all there are those of scopes of the tree. -/
theorem Linked.exists_scopes (h : t.Linked) {ids : List ScopeId} (hids : ∀ id ∈ ids, id < t.size) :
    ∃ scopes : List Scope, ids = scopes.map (·.id) ∧ ∀ s ∈ scopes, t.scope? s.id = some s := by
  induction ids with
  | nil => exact ⟨[], rfl, fun s hs => absurd hs List.not_mem_nil⟩
  | cons id ids ih =>
    obtain ⟨scopes, rfl, hscopes⟩ := ih fun id hid => hids id (List.mem_cons_of_mem _ hid)
    obtain ⟨s, hs⟩ := scope?_isSome (hids id (List.mem_cons_self ..))
    have hid := h.id_eq id s hs
    refine ⟨s :: scopes, by rw [List.map_cons, hid], fun s' hs' => ?_⟩
    rcases List.mem_cons.mp hs' with rfl | hs'
    · rw [hid]
      exact hs
    · exact hscopes s' hs'

/-- Scopes of the tree, one for each id, are all its scopes. -/
theorem Formed.scopes_perm (h : t.Formed) {scopes : List Scope}
    (hscopes : ∀ s ∈ scopes, t.scope? s.id = some s)
    (hperm : (scopes.map (·.id)).Perm (List.range t.size)) : scopes.Perm t.scopes := by
  have hlookup : ∀ scopes : List Scope, (∀ s ∈ scopes, t.scope? s.id = some s) →
      (scopes.map (·.id)).map t.scope? = scopes.map some := by
    intro scopes hscopes
    rw [List.map_map]
    exact List.map_congr_left hscopes
  rw [← h.ids] at hperm
  have hfound := hperm.map t.scope?
  rw [hlookup _ hscopes, hlookup _ fun s hs => h.scope?_of_mem hs] at hfound
  exact (List.map_perm_map_iff fun _ _ => Option.some.inj).mp hfound

end ScopeTree

namespace NoUndefined

variable {t : ScopeTree}

/-- The bindings of the word are looked at scope by scope in the order inspected. -/
theorem boundUses_eq {scopes : List Scope} (hscopes : ∀ s ∈ scopes, t.scope? s.id = some s)
    (horder : t.inspectionOrder = .ok (scopes.map (·.id))) :
    boundUses t = scopes.flatMap usesIn := by
  rw [boundUses, horder]
  show (scopes.map (·.id)).flatMap _ = _
  rw [List.flatMap_map]
  refine List.flatMap_congr fun s hs => ?_
  rw [hscopes s hs]
  rfl

/-- **Validation is enough to run the rule safely.**  In an arena whose scopes have their
places as ids and whose first scope has no parent, whatever the other parents and the
children may be: if validation accepts it, the inspection meets scopes of the arena only,
in right-to-left preorder, and ends after as many steps as it meets scopes; with fewer
steps it is cut short, and never for want of a scope.  A scope is met twice just when the
children of a scope that is met name a scope twice. -/
theorem inspection_of_validate (hids : ∀ (i : Nat) s, t.scope? i = some s → s.id = i)
    (hroot : ∃ s, t.scope? rootId = some s ∧ s.parent = none) (hvalid : t.validate = .ok ()) :
    ∃ scopes : List Scope, t.RightToLeft [rootId] (scopes.map (·.id)) ∧
      (∀ s ∈ scopes, t.scope? s.id = some s) ∧
      (∀ fuel, t.inspectFrom fuel [rootId] =
        if scopes.length ≤ fuel then .ok (scopes.map (·.id)) else .error .unfinished) ∧
      boundUses t = scopes.flatMap usesIn ∧
      ((scopes.map (·.id)).Nodup ↔ ∀ s ∈ scopes, s.children.Nodup) := by
  have hlinked := linked_of_validate hids hroot hvalid
  obtain ⟨ids, hmet, horder⟩ := hlinked.exists_rightToLeft
  obtain ⟨scopes, rfl, hscopes⟩ := hlinked.exists_scopes hmet.lt_size
  refine ⟨scopes, hmet, hscopes, fun fuel => ?_, boundUses_eq hscopes horder, ?_⟩
  · rw [hmet.inspectFrom_eq fuel, List.length_map]
  · rw [hlinked.nodup_iff hmet, List.forall_mem_map]
    constructor
    · exact fun honce s hs => honce s hs s (hscopes s hs)
    · intro honce s hs s' hs'
      cases (hscopes s hs).symm.trans hs'
      exact honce s hs

/-- An arena that is no tree: the first scope names its child twice, and two scopes that no
way leads to are the parents of each other. -/
def tangled : ScopeTree :=
  let scope (id : ScopeId) (parent : Option ScopeId) (children : List ScopeId) : Scope :=
    { Scope.empty id .block parent ⟨0, 0⟩ with children }
  ⟨[scope 0 none [1, 1], scope 1 (some 0) [], scope 2 (some 3) [3], scope 3 (some 2) [2]]⟩

theorem inspection_of_tangled :
    ∃ scopes : List Scope, tangled.RightToLeft [rootId] (scopes.map (·.id)) ∧
      (∀ fuel, tangled.inspectFrom fuel [rootId] =
        if scopes.length ≤ fuel then .ok (scopes.map (·.id)) else .error .unfinished) ∧
      ((scopes.map (·.id)).Nodup ↔ ∀ s ∈ scopes, s.children.Nodup) := by
  have hids : ∀ (i : Nat) s, tangled.scope? i = some s → s.id = i := by
    intro i s hs
    have hall : ∀ i : Fin 4, ∀ s ∈ tangled.scope? i, s.id = i := by decide
    exact hall ⟨i, lt_size hs⟩ s hs
  obtain ⟨scopes, hmet, _, hsteps, _, honce⟩ := inspection_of_validate hids ⟨_, rfl, rfl⟩ rfl
  exact ⟨scopes, hmet, hsteps, honce⟩

/-- **The reports on a tree that calls have made**, each opening a scope in one that is
there: the inspection ends, and meets every scope once in right-to-left preorder.  First
come the uses that passed through the global scope, then scope by scope the uses of the
binding, but for first values, and its definitions, all in the order recorded. -/
theorem reports_of_calls {span : Span} {calls : List Call}
    (hrun : (ofSpan span).runAll calls = .ok t) (hplace : InPlace calls) :
    ∃ (root : Scope) (scopes : List Scope), t.scope? rootId = some root ∧
      t.RightToLeft [rootId] (scopes.map (·.id)) ∧ scopes.Perm t.scopes ∧
      (∀ s ∈ scopes, t.scope? s.id = some s) ∧
      (∀ fuel, t.size ≤ fuel → t.inspectFrom fuel [rootId] = .ok (scopes.map (·.id))) ∧
      rule.check t =
        ((root.through.filter (·.name == word)).map (·.identifier) ++
          scopes.flatMap fun s =>
            ((s.referencesOf word).filter (!·.init)).map (·.identifier) ++
              (s.definitionsOf word).map (·.name)).map (⟨·, message⟩) := by
  have hmade : Made calls t := (Made.ofSpan span).runAll calls hrun
  have hformed := hmade.formed hplace
  obtain ⟨root, hroot⟩ : ∃ root, t.scope? rootId = some root := scope?_isSome hformed.pos
  obtain ⟨ids, horder, hperm⟩ := hformed.inspectionOrder_perm
  obtain ⟨hmet, _⟩ := inspectFrom_eq_ok_iff.mp horder
  obtain ⟨scopes, rfl, hscopes⟩ := hmade.linked.exists_scopes hmet.lt_size
  have hlength : (scopes.map (·.id)).length = t.size := by
    rw [hperm.length_eq, List.length_range]
  refine ⟨root, scopes, hroot, hmet, hformed.scopes_perm hscopes hperm, hscopes,
    fun fuel hfuel => ?_, ?_⟩
  · exact inspectFrom_eq_ok_iff.mpr ⟨hmet, hlength ▸ hfuel⟩
  · have hfree : freeUses t = (root.through.filter (·.name == word)).map (·.identifier) := by
      rw [freeUses, ScopeTree.unresolved, hroot]
      rfl
    have huses : usesIn = fun s => ((s.referencesOf word).filter (!·.init)).map (·.identifier) ++
        (s.definitionsOf word).map (·.name) := funext usesIn_eq
    have hcheck : rule.check t = (freeUses t ++ boundUses t).map (⟨·, message⟩) := rfl
    rw [hcheck, hfree, boundUses_eq hscopes horder, huses]

theorem reports_of_nestedCalls :
    ∃ t, (ofSpan ⟨0, 20⟩).runAll nestedCalls = .ok t ∧
      ∃ scopes : List Scope, t.RightToLeft [rootId] (scopes.map (·.id)) ∧ scopes.Perm t.scopes := by
  obtain ⟨t, hrun⟩ : ∃ t, (ofSpan ⟨0, 20⟩).runAll nestedCalls = .ok t := ⟨_, rfl⟩
  obtain ⟨_, scopes, _, hmet, hperm, _⟩ := reports_of_calls hrun (by decide)
  exact ⟨t, hrun, scopes, hmet, hperm⟩

end NoUndefined

end ScopeLint
