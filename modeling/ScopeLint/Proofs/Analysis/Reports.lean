import ScopeLint.Rule.NoUndefined
import ScopeLint.Proofs.Analysis.Scoping
import ScopeLint.Proofs.ScopeTree.Inspection
import ScopeLint.Proofs.Walk.Definitions

/-! # What the rule reports

The rule reads a finished scope tree: the uses that passed through the global
scope, and the bindings of the word.  What it finds there is what the walk
recorded of the word, up to order: every definition, and every use that is not a
first value.  Scopes decide only where it finds them.

A first value is never among the uses that passed through the global scope, for
its declaration lies in reach; and the inspection meets every scope once.
-/

namespace ScopeLint

open Syntax (Identifier Program)

/-- The identifiers that records are about, but for first values: the definitions,
then the uses. -/
def Syntax.Program.mentions (program : Program) : List Identifier :=
  program.definitions.map (·.2.name) ++
    (program.references.filter (!·.init)).map (·.identifier)

theorem Syntax.Program.mentions_filter (program : Program) (word : String) :
    program.mentions.filter (·.name = word) =
      (program.definitions.filter fun d => d.2.name.name = word).map (·.2.name) ++
        (program.references.filter fun r => r.name = word ∧ r.init = false).map
          (·.identifier) := by
  rw [mentions, List.filter_append, List.filter_map, List.filter_map, List.filter_filter]
  congr 2
  refine List.filter_congr fun r _ => ?_
  cases r.init <;> simp [Reference.name]

namespace NoUndefined

theorem usesIn_eq (s : Scope) :
    usesIn s =
      ((s.referencesOf word).filter (!·.init)).map (·.identifier) ++
        (s.definitionsOf word).map (·.name) := by
  unfold usesIn Scope.referencesOf Scope.definitionsOf
  cases s.binding? word <;> rfl

/-- The bindings of the word are looked at scope by scope, in some order. -/
theorem boundUses_perm {t : ScopeTree} (h : t.Formed) :
    (boundUses t).Perm (t.scopes.flatMap usesIn) := by
  obtain ⟨ids, hids, hperm⟩ := h.inspectionOrder_perm
  unfold boundUses
  rw [hids]
  refine (hperm.flatMap_right _).trans (.of_eq ?_)
  rw [← h.ids, List.flatMap_map]
  refine List.flatMap_congr fun s hs => ?_
  rw [h.scope?_of_mem hs]
  rfl

/-! ### Uses and definitions apart -/

/-- The uses found, in the global scope's list and in the bindings, are those that
are not first values. -/
theorem uses_perm {t : ScopeTree} (h : t.Formed) {uses : List Reference} (htwo : TwoPass t uses)
    (hfirst : ∀ r ∈ uses, r.init = true → t.home? r ≠ none) :
    (freeUses t ++ t.scopes.flatMap fun s =>
        ((s.referencesOf word).filter (!·.init)).map (·.identifier)).Perm
      ((uses.filter fun r => r.name = word ∧ r.init = false).map (·.identifier)) := by
  have hmade := fun r hr => (htwo.made r hr).1
  have hwanted : ∀ r ∈ uses.filter (fun r => r.name = word ∧ r.init = false),
      r.origin < t.size := fun r hr => hmade r (List.mem_filter.mp hr).1
  have hgroups := (h.perm_homes hwanted).map Reference.identifier
  refine List.Perm.trans (.of_eq ?_) hgroups.symm
  rw [List.map_append, List.map_flatMap]
  congr 1
  -- Without a home are those that the global scope could not resolve, and none of these
  -- is a first value.
  · rw [freeUses, TwoPass.unresolved_eq h hmade htwo.through, List.filter_filter,
      List.filter_filter]
    congr 1
    refine List.filter_congr fun r hr => ?_
    by_cases hhome : t.home? r = none
    · have hinit : r.init = false := by
        cases hi : r.init with
        | false => rfl
        | true => exact absurd hhome (hfirst r hr hi)
      by_cases hn : r.name = word <;> simp [hhome, hinit, hn]
    · simp [hhome]
  · refine List.flatMap_congr fun s hs => ?_
    rw [htwo.referencesOf_eq (h.scope?_of_mem hs), List.filter_map, List.map_map,
      List.filter_filter, List.filter_filter]
    congr 1
    refine List.filter_congr fun r _ => ?_
    have hinit : (r.resolvedIn s.id).init = r.init := rfl
    by_cases hhome : t.home? r = some s.id <;> by_cases hn : r.name = word <;>
      simp [hhome, hn, hinit]

/-- The definitions found in the bindings are all definitions of the word. -/
theorem definitions_perm {w : Walk} (h : w.tree.Formed) {defs : List (ScopeId × Definition)}
    {uses : List Reference} (hdefined : w.Defined defs uses) :
    (w.tree.scopes.flatMap fun s => (s.definitionsOf word).map (·.name)).Perm
      ((defs.filter fun d => d.2.name.name = word).map (·.2.name)) := by
  have hnodup : (w.tree.scopes.map (·.id)).Nodup := by
    rw [h.ids]
    exact List.nodup_range
  have howners : ∀ d ∈ defs.filter (fun d => d.2.name.name = word),
      d.1 ∈ w.tree.scopes.map (·.id) := by
    intro d hd
    rw [h.ids]
    exact List.mem_range.mpr (hdefined.owner_lt d (List.mem_filter.mp hd).1)
  have hgroups := (perm_groups Prod.fst Scope.id hnodup howners).map fun d => d.2.name
  refine List.Perm.trans (.of_eq ?_) hgroups.symm
  rw [List.map_flatMap]
  refine List.flatMap_congr fun s hs => ?_
  rw [hdefined.given s.id s (h.scope?_of_mem hs), List.map_map, List.filter_filter]
  congr 1
  refine List.filter_congr fun d _ => ?_
  rw [Bool.decide_and]

end NoUndefined

/-! ### The result -/

/-- A first value has a home, for its declaration lies in reach. -/
theorem Walk.Defined.home?_ne_none {w : Walk} {defs : List (ScopeId × Definition)}
    {uses : List Reference} (h : w.Defined defs uses) {r : Reference} (hr : r ∈ uses)
    (hinit : r.init = true) : w.tree.home? r ≠ none := by
  obtain ⟨d, hd, hmem, hname⟩ := h.first r hr hinit
  obtain ⟨s, hs⟩ := ScopeTree.scope?_isSome (h.owner_lt d hd)
  have hdeclares : w.tree.declares d.1 r.name = true := by
    cases hcase : w.tree.declares d.1 r.name with
    | true => rfl
    | false =>
      rw [ScopeTree.declares_of_scope hs] at hcase
      have hnone := Scope.definitionsOf_of_not_declares hcase
      rw [h.given d.1 s hs, List.map_eq_nil_iff, List.filter_eq_nil_iff] at hnone
      exact absurd (decide_eq_true ⟨rfl, congrArg Identifier.name hname⟩) (hnone d hd)
  intro hhome
  exact List.find?_eq_none.mp hhome d.1 hmem hdeclares

/-- The rule reports the mentions of the word. -/
theorem NoUndefined.reports_perm (program : Program) :
    ((rule.check (analyze program)).map (·.node)).Perm
      (program.mentions.filter (·.name = word)) := by
  obtain ⟨w, hreached, htree, hclosed⟩ := analyze_reached program
  have htwo : TwoPass w.tree program.references := hreached.twoPass hclosed
  have hformed := hreached.formed.tree
  have hdefined : w.Defined program.definitions program.references := hreached.defined
  rw [← htree]
  have hchecked : (rule.check w.tree).map (·.node) = freeUses w.tree ++ boundUses w.tree := by
    rw [rule, List.map_map]
    exact List.map_id _
  have huses := uses_perm hformed htwo fun r hr hinit => hdefined.home?_ne_none hr hinit
  have hdefs := definitions_perm hformed hdefined
  have hbound := (boundUses_perm hformed).trans
    (.of_eq (List.flatMap_congr fun s _ => usesIn_eq s))
  have hapart := hbound.trans (List.flatMap_append_perm w.tree.scopes _ _).symm
  rw [hchecked, Program.mentions_filter]
  refine (hapart.append_left _).trans ?_
  rw [← List.append_assoc]
  exact (huses.append hdefs).trans List.perm_append_comm

/-- **The rule reports every definition and every use of the word, but for first
values, once**, whatever scopes they end in. -/
theorem noUndefined_reports (program : Program) :
    ((NoUndefined.rule.check (analyze program)).map (·.node)).Perm
      ((program.definitions.filter fun d => d.2.name.name = NoUndefined.word).map (·.2.name) ++
        (program.references.filter fun r => r.name = NoUndefined.word ∧ r.init = false).map
          (·.identifier)) := by
  rw [← Program.mentions_filter]
  exact NoUndefined.reports_perm program

end ScopeLint
