import ScopeLint.Proofs.Lint.Linter
import ScopeLint.Proofs.Walk.InModule

/-! # Scripts and modules are linted alike

The rule looks at names and not at ids, and the scope around a module declares
nothing.  So it reports the same on the tree of a script and on that tree with the
scope of a module inserted, in the same order: the inspection of the module meets
the global scope first, where there is nothing to report, and then all scopes as
in the script.
-/

namespace ScopeLint

open Syntax (Node Program Grammar SourceType)

namespace ScopeTree

theorem unresolved_inModule (t : ScopeTree) :
    t.inModule.unresolved = t.unresolved.map .shift := by
  rw [unresolved, unresolved, scope?_inModule_root]
  cases t.scope? rootId <;> rfl

end ScopeTree

namespace NoUndefined

theorem usesIn_moved (kind : ScopeKind) (parent : Option ScopeId) (s : Scope) :
    usesIn (s.moved kind parent) = usesIn s := by
  unfold usesIn Scope.binding? Scope.moved
  rw [Scope.find?_map_shift]
  cases s.bindings.find? (·.name == word) with
  | none => rfl
  | some b =>
    show ((b.references.map Reference.shift).filter _).map _ ++ _ = _
    rw [List.filter_map, List.map_map]
    rfl

theorem freeUses_inModule (t : ScopeTree) : freeUses t.inModule = freeUses t := by
  rw [freeUses, freeUses, ScopeTree.unresolved_inModule, List.filter_map, List.map_map]
  rfl

theorem boundUses_inModule {t : ScopeTree} (h : t.Formed) (h' : t.inModule.Formed) :
    boundUses t.inModule = boundUses t := by
  -- The global scope of the module declares nothing, and the others declare what they did.
  have hroot : ((t.inModule.scope? ScopeTree.rootId).map usesIn).getD [] = [] := by
    rw [ScopeTree.scope?_inModule_root]
    cases t.scope? ScopeTree.rootId <;> rfl
  have hother : ∀ id : Nat, ((t.inModule.scope? (id + 1)).map usesIn).getD [] =
      ((t.scope? id).map usesIn).getD [] := by
    intro id
    rw [ScopeTree.scope?_inModule]
    cases t.scope? id with
    | none => rfl
    | some s =>
      rw [Option.map_some, Option.map_some, Option.map_some]
      split
      · exact usesIn_moved .module _ s
      · exact usesIn_moved s.kind _ s
  unfold boundUses
  rw [h.inspectionOrder_eq, h'.inspectionOrder_eq, ScopeTree.inside_inModule h h']
  show List.flatMap _ (_ :: _) = List.flatMap _ _
  rw [List.flatMap_cons, hroot, List.nil_append, List.flatMap_map]
  exact List.flatMap_congr fun id _ => hother id

theorem check_inModule {t : ScopeTree} (h : t.Formed) (h' : t.inModule.Formed) :
    rule.check t.inModule = rule.check t := by
  show (freeUses _ ++ boundUses _).map _ = _
  rw [freeUses_inModule, boundUses_inModule h h']
  rfl

/-- The rule reports the same on a script and on a module. -/
theorem check_module (source : Source) (root : Node) :
    rule.check (analyze ⟨source, root, .module⟩) =
      rule.check (analyze ⟨source, root, .script⟩) := by
  have hformed := analyze_formed ⟨source, root, .module⟩
  rw [analyze_module] at hformed ⊢
  exact check_inModule (analyze_formed _) hformed

end NoUndefined

/-- A text is a program of one source type if it is one of the other. -/
theorem Syntax.Program.ofText_module (grammar : Grammar) (text : String) :
    Program.ofText grammar .module text =
      (Program.ofText grammar .script text).map ({ · with sourceType := .module }) := by
  unfold ofText
  simp only
  cases (treeOf grammar text).firstBad? <;> rfl

/-- The linter with the built-in rules tells the same of a script and of a module. -/
theorem Linter.check_module (settings : Settings) (grammar : Grammar) (text : String) :
    (⟨settings, Registry.builtin⟩ : Linter).check grammar text .module =
      (⟨settings, Registry.builtin⟩ : Linter).check grammar text .script := by
  rw [check_builtin, check_builtin, Program.ofText_module]
  cases hprogram : Program.ofText grammar .script text with
  | error e => rfl
  | ok program =>
    obtain ⟨source, root, sourceType⟩ := program
    obtain rfl : sourceType = .script := congrArg Program.sourceType (Program.eq_of_ofText hprogram)
    show Except.ok (Diagnostic.sort (runRule settings _ NoUndefined.rule)) =
      Except.ok (Diagnostic.sort (runRule settings _ NoUndefined.rule))
    unfold runRule
    rw [NoUndefined.check_module]

theorem Linter.verifyAs_module (settings : Settings) (grammar : Grammar) (text : String) :
    (⟨settings, Registry.builtin⟩ : Linter).verifyAs grammar text .module =
      (⟨settings, Registry.builtin⟩ : Linter).verifyAs grammar text .script := by
  unfold verifyAs
  rw [check_module]

/-- What the linter with the built-in rules tells does not depend on the source type. -/
theorem Linter.verifyAs_congr (settings : Settings) (grammar : Grammar) (text : String)
    (sourceType sourceType' : SourceType) :
    (⟨settings, Registry.builtin⟩ : Linter).verifyAs grammar text sourceType =
      (⟨settings, Registry.builtin⟩ : Linter).verifyAs grammar text sourceType' := by
  have hmodule := verifyAs_module settings grammar text
  cases sourceType <;> cases sourceType'
  case script.module => exact hmodule.symm
  case module.script => exact hmodule
  all_goals rfl

/-- **A program is linted alike as a script and as a module.**  The scope tree of the
module is that of the script with the scope of the module inserted, the rule reports
the same on both in the same order, and the linter tells the same of both. -/
theorem noUndefined_sourceType :
    (∀ (source : Source) (root : Node),
      analyze ⟨source, root, .module⟩ = (analyze ⟨source, root, .script⟩).inModule ∧
      NoUndefined.rule.check (analyze ⟨source, root, .module⟩) =
        NoUndefined.rule.check (analyze ⟨source, root, .script⟩)) ∧
    ∀ (settings : Settings) (grammar : Grammar) (text : String),
      (⟨settings, Registry.builtin⟩ : Linter).verifyAs grammar text .script =
        (⟨settings, Registry.builtin⟩ : Linter).verifyAs grammar text .module := by
  refine ⟨fun source root => ⟨analyze_module source root, NoUndefined.check_module source root⟩, ?_⟩
  intro settings grammar text
  exact (Linter.verifyAs_module settings grammar text).symm

end ScopeLint
