import ScopeLint.Proofs.Analysis.WellFormed
import ScopeLint.Proofs.Walk.Definitions
import ScopeLint.Proofs.Walk.Housing

/-! # Definitions live where their kind may live

Each definition of a program is written in a scope of its outline and recorded in the
owner of its name as seen from there (`analyze_definitionsOf`).  Since outlines are
housed, the scopes of the tree hold what may live in them (`analyze_housed`).  What is
left of the global scope of a module is told by the script of the same tree, for the
module's scope has all that the script has globally.
-/

namespace ScopeLint

open Syntax (Program)

/-! ### Owners -/

/-- Two lists of definitions with the same owners have the same definitions of a scope. -/
theorem map_filter_owner {defs sites : List (ScopeId × Definition)}
    {owner? : ScopeId × Definition → Option ScopeId}
    (h : defs.map (fun d => (some d.1, d.2)) = sites.map fun s => (owner? s, s.2)) (i : ScopeId)
    (name : String) :
    (defs.filter fun d => d.1 = i ∧ d.2.name.name = name).map (·.2) =
      (sites.filter fun s => owner? s = some i ∧ s.2.name.name = name).map (·.2) := by
  have hfilter := congrArg (fun l : List (Option ScopeId × Definition) =>
    (l.filter fun x => x.1 = some i ∧ x.2.name.name = name).map (·.2)) h
  simp only [List.filter_map, List.map_map] at hfilter
  have hdefs : ((fun x : Option ScopeId × Definition =>
      decide (x.1 = some i ∧ x.2.name.name = name)) ∘ fun d : ScopeId × Definition =>
        (some d.1, d.2)) = fun d => decide (d.1 = i ∧ d.2.name.name = name) := by
    funext d
    simp
  rw [hdefs] at hfilter
  exact hfilter

/-- **A scope has the definitions that it owns**, in the order written. -/
theorem analyze_definitionsOf (program : Program) {i : Nat} {s : Scope}
    (hs : (analyze program).scope? i = some s) (name : String) :
    s.definitionsOf name =
      (program.sites.filter fun site =>
        (analyze program).owner? site.1 site.2.kind = some i ∧ site.2.name.name = name).map
          (·.2) := by
  obtain ⟨w, hw, htree, _⟩ := analyze_reached program
  have hgiven := htree ▸ hw.defined.given i s
  exact (hgiven hs name).trans (map_filter_owner program.definitions_eq i name)

/-- Every definition has an owner. -/
theorem exists_owner (program : Program) {site : ScopeId × Definition}
    (hsite : site ∈ program.sites) :
    ∃ i : Nat, i < (analyze program).size ∧
      (analyze program).owner? site.1 site.2.kind = some i := by
  obtain ⟨w, hw, htree, _⟩ := analyze_reached program
  have hmem := List.mem_map_of_mem
    (f := fun s => ((analyze program).owner? s.1 s.2.kind, s.2)) hsite
  rw [← program.definitions_eq] at hmem
  obtain ⟨d, hd, hsame⟩ := List.mem_map.mp hmem
  refine ⟨d.1, ?_, (congrArg Prod.fst hsame).symm⟩
  rw [← htree]
  exact hw.defined.owner_lt d hd

/-! ### Kinds -/

/-- The outline of a program is housed in the global scope. -/
theorem Syntax.Program.outline_housed (program : Program) :
    ∀ e ∈ program.outline, e.Housed .global := by
  have hrole : ∀ scope : ScopeKind, Role.contents.writtenIn scope = true := fun _ => rfl
  obtain ⟨source, root, sourceType⟩ := program
  cases sourceType with
  | script => exact ScopeLint.outline_housed (hrole .global) root
  | module =>
    refine List.forall_mem_singleton.mpr (.scope _ ScopeKind.noConfusion ?_)
    exact ScopeLint.outline_housed (hrole .module) root

/-- **The scopes of a program hold what may live in them.** -/
theorem analyze_housed (program : Program) : (analyze program).Housed [] := by
  have hstart := Walk.housing_start program.root.label.span
  have hend : ((Walk.start program.root.label.span).entries program.source
      program.outline).tree.Housed [] :=
    hstart.entries fun e he w hw => Walk.housed_entry (program.outline_housed e he) hw
  have hformed : ((Walk.start program.root.label.span).entries program.source
      program.outline).Formed := Walk.Formed.entries _ hstart.formed hstart.stack
  exact hformed.housed_leaveAll _ hend

/-! ### Modules -/

/-- **Of a module the global scope holds only the scope of the module**, and what passes
through one of the two passes through both. -/
theorem analyze_aroundModule {program : Program} (h : program.sourceType = .module) :
    ∃ outer inner, (analyze program).scope? 0 = some outer ∧
      (analyze program).scope? 1 = some inner ∧ outer.bindings = [] ∧ outer.children = [1] ∧
      inner.kind = .module ∧ outer.through = inner.through := by
  obtain ⟨source, root, sourceType⟩ := program
  subst h
  have hformed := analyze_formed ⟨source, root, .script⟩
  obtain ⟨s, hs⟩ := ScopeTree.scope?_isSome hformed.pos
  have hs : (analyze ⟨source, root, .script⟩).scope? ScopeTree.rootId = some s := hs
  have houter := ScopeTree.scope?_inModule_root (analyze ⟨source, root, .script⟩)
  have hinner := ScopeTree.scope?_inModule (analyze ⟨source, root, .script⟩) ScopeTree.rootId
  rw [hs, Option.map_some, ← analyze_module] at houter hinner
  exact ⟨s.aroundModule, s.asModule, houter, hinner, rfl, rfl, rfl, rfl⟩

/-- **Only the scope inside the global one can be a module's**, and is when the program
is a module. -/
theorem analyze_kind_eq_module (program : Program) {i : Nat} {s : Scope}
    (hs : (analyze program).scope? i = some s) :
    s.kind = .module ↔ program.sourceType = .module ∧ i = 1 := by
  have hconstruct : ∀ o ∈ openingsAll (program.root.outline .contents), o.1 ≠ .module := by
    intro o ho hmodule
    have hkind := isWhole_of_mem_openings ho
    rw [hmodule] at hkind
    cases hkind
  have hkind : ((analyze program).openings[i]?).map Prod.fst = some s.kind := by
    rw [← ScopeTree.kind?_eq_openings, ScopeTree.kind?_of_scope hs]
  have hlater : ∀ j : Nat, ((openingsAll (program.root.outline .contents))[j]?).map Prod.fst =
      some s.kind → s.kind ≠ .module := by
    intro j hj
    obtain ⟨o, ho, hsame⟩ := Option.map_eq_some_iff.mp hj
    exact hsame ▸ hconstruct o (List.mem_of_getElem? ho)
  rw [analyze_openings] at hkind
  obtain ⟨source, root, sourceType⟩ := program
  cases sourceType with
  | script =>
    refine iff_of_false ?_ fun h => Syntax.SourceType.noConfusion h.1
    cases i with
    | zero =>
      rw [← Option.some.inj hkind]
      exact ScopeKind.noConfusion
    | succ i => exact hlater i hkind
  | module =>
    have hopenings : openingsAll (Program.outline ⟨source, root, .module⟩) =
        (.module, root.label.span) :: openingsAll (root.outline .contents) :=
      List.append_nil _
    rw [hopenings] at hkind
    match i with
    | 0 =>
      refine iff_of_false ?_ fun h => absurd h.2 Nat.zero_ne_one
      rw [← Option.some.inj hkind]
      exact ScopeKind.noConfusion
    | 1 => exact iff_of_true (Option.some.inj hkind).symm ⟨rfl, rfl⟩
    | i + 2 => exact iff_of_false (hlater i hkind) fun h => absurd h.2 (by omega)

/-! ### The result -/

/-- **Definitions live where their kind may live.**  The scopes of a program stand in one
another as in its outline, so a definition has a scope that it is written in.  It is
recorded in its owner: for `var` the first variable scope from there on outwards, for
all others the scope itself.  So no other scope holds a `var`, parameters are in scopes
of functions, and what a catch clause binds is in its scope; and the scope of a
function's own name holds one definition of that name and the scope of the function.  In
a module the global scope holds the scope of the module only, which is the one of its
kind, and the same passes through both; in a script there is no such scope. -/
theorem definitions_live_where_they_may (program : Program) :
    let t := analyze program
    let ordinary : List ScopeKind := [.block, .switchBody, .catchClause, .withBody, .classBody,
      .forLoop, .functionExpressionName]
    t.openings = (.global, program.root.label.span) :: openingsAll program.outline ∧
    t.parents =
      none :: (parentsAll ScopeTree.rootId (ScopeTree.rootId + 1) program.outline).map some ∧
    (∀ site ∈ program.sites, ∃ i : Nat, i < t.size ∧ t.owner? site.1 site.2.kind = some i) ∧
    (∀ (i : Nat) s, t.scope? i = some s → ∀ name : String,
      s.definitionsOf name =
        (program.sites.filter fun site =>
          t.owner? site.1 site.2.kind = some i ∧ site.2.name.name = name).map (·.2)) ∧
    (∀ (i : Nat) s, t.scope? i = some s → ∀ b ∈ s.bindings, ∀ d ∈ b.definitions,
      (d.kind = .declared .byVar → s.kind.isVariableScope = true ∧ s.kind ∉ ordinary) ∧
      (d.kind = .parameter → s.kind = .function) ∧
      (d.kind = .catchClause → s.kind = .catchClause)) ∧
    (∀ (i : Nat) s, t.scope? i = some s → s.kind = .functionExpressionName →
      ∃ b d, s.bindings = [b] ∧ b.definitions = [d] ∧ d.kind = .functionName ∧
        ∃ c inner, s.children = [c] ∧ t.scope? c = some inner ∧ inner.kind = .function) ∧
    (program.sourceType = .module →
      ∃ outer inner, t.scope? 0 = some outer ∧ t.scope? 1 = some inner ∧
        outer.bindings = [] ∧ outer.children = [1] ∧ inner.kind = .module ∧
        outer.through = inner.through ∧
        ∀ (i : Nat) s, t.scope? i = some s → s.kind = .module → i = 1) ∧
    (program.sourceType = .script → ∀ (i : Nat) s, t.scope? i = some s → s.kind ≠ .module) := by
  intro t ordinary
  have hhoused := analyze_housed program
  refine ⟨analyze_openings program, analyze_parents program, fun site => exists_owner program,
    fun i s hs => analyze_definitionsOf program hs, ?_, ?_, ?_, ?_⟩
  · intro i s hs b hb d hd
    have hlives := hhoused.lives i s hs b.definitions (List.mem_map_of_mem hb) d hd
    refine ⟨fun hvar => ?_, fun hparameter => ?_, fun hcatch => ?_⟩
    · rw [hvar] at hlives
      have hvariable : s.kind.isVariableScope = true := hlives
      have hordinary : ∀ k ∈ ordinary, k.isVariableScope = false := by decide
      refine ⟨hvariable, fun hmem => ?_⟩
      rw [hordinary s.kind hmem] at hvariable
      cases hvariable
    · rw [hparameter] at hlives
      exact beq_iff_eq.mp hlives
    · rw [hcatch] at hlives
      exact beq_iff_eq.mp hlives
  · intro i s hs hkind
    obtain ⟨d, c, hdeclared, hname, hchildren, hfunction⟩ :=
      hhoused.full i s hs hkind List.not_mem_nil
    obtain ⟨b, hbindings, hdefinitions⟩ := List.map_eq_singleton_iff.mp hdeclared
    obtain ⟨inner, hinner, hkind⟩ := Option.map_eq_some_iff.mp hfunction
    exact ⟨b, d, hbindings, hdefinitions, hname, c, inner, hchildren, hinner, hkind⟩
  · intro hmodule
    obtain ⟨outer, inner, houter, hinner, hbindings, hchildren, hkind, hthrough⟩ :=
      analyze_aroundModule hmodule
    refine ⟨outer, inner, houter, hinner, hbindings, hchildren, hkind, hthrough, ?_⟩
    intro i s hs hs'
    exact ((analyze_kind_eq_module program hs).mp hs').2
  · intro hscript i s hs hkind
    have hmodule := ((analyze_kind_eq_module program hs).mp hkind).1
    rw [hscript] at hmodule
    cases hmodule

end ScopeLint
