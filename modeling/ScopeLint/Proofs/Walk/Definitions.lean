import ScopeLint.Proofs.Walk.Leaving

/-! # Where definitions end

A definition goes at once to the scope that owns its name and stays there, so at
every state of a walk each scope has, for each name, the definitions recorded for
it, in order (`Walk.Defined`).  A use by which a declaration gives the first
value comes right after the definition, whose owner lies on the chain of the
scope that the use is made in: so such a use never leaves the program.
-/

namespace ScopeLint

open Syntax (Label Identifier)

@[simp] theorem definitionsIn_append_definition (log : List Record) (source : Source) (w : Walk)
    (name : Label) (kind : DefinitionKind) :
    definitionsIn (log ++ [w.declared source name kind]) =
      definitionsIn log ++ [(w.owner kind, ⟨.ofLabel source name, kind⟩)] := by
  simp [definitionsIn, Record.definition?, Walk.declared]

@[simp] theorem definitionsIn_append_reference (log : List Record) (r : Reference) :
    definitionsIn (log ++ [.reference r]) = definitionsIn log := by
  simp [definitionsIn, Record.definition?]

namespace Walk

/-- **Where every definition is at a state of a walk**, and that first values have
definitions in reach. -/
structure Defined (w : Walk) (defs : List (ScopeId × Definition)) (uses : List Reference) :
    Prop where
  owner_lt : ∀ d ∈ defs, d.1 < w.tree.size
  given : ∀ (i : Nat) s, w.tree.scope? i = some s → ∀ name : String,
    s.definitionsOf name = (defs.filter fun d => d.1 = i ∧ d.2.name.name = name).map (·.2)
  first : ∀ r ∈ uses, r.init = true →
    ∃ d ∈ defs, d.1 ∈ w.tree.chain r.origin ∧ d.2.name = r.identifier

/-- A step that keeps sizes, chains and definitions keeps where definitions are. -/
theorem Defined.congr {w w' : Walk} {defs : List (ScopeId × Definition)} {uses : List Reference}
    (h : w.Defined defs uses) (hsize : w.tree.size ≤ w'.tree.size)
    (hchain : ∀ r ∈ uses, w'.tree.chain r.origin = w.tree.chain r.origin)
    (hscope : ∀ (i : Nat) s, w'.tree.scope? i = some s → (∀ n, s.definitionsOf n = []) ∧
      w.tree.size ≤ i ∨ ∃ s₀, w.tree.scope? i = some s₀ ∧
        ∀ n, s.definitionsOf n = s₀.definitionsOf n) :
    w'.Defined defs uses where
  owner_lt := fun d hd => Nat.lt_of_lt_of_le (h.owner_lt d hd) hsize
  given := by
    intro i s hs n
    rcases hscope i s hs with ⟨hnone, hge⟩ | ⟨s₀, hs₀, heq⟩
    · have hfilter : defs.filter (fun d => d.1 = i ∧ d.2.name.name = n) = [] := by
        refine List.filter_eq_nil_iff.mpr fun d hd he => ?_
        have hlt := h.owner_lt d hd
        have hid := (of_decide_eq_true he).1
        rw [hid] at hlt
        exact Nat.lt_irrefl _ (Nat.lt_of_lt_of_le hlt hge)
      rw [hnone n, hfilter]
      rfl
    · rw [heq n]
      exact h.given i s₀ hs₀ n
  first := fun r hr hinit => by
    rw [hchain r hr]
    exact h.first r hr hinit

theorem defined_start (span : Span) : (start span).Defined [] [] where
  owner_lt := fun _ hd => absurd hd List.not_mem_nil
  given := by
    intro i s hs n
    cases i with
    | zero => rw [← Option.some.inj hs]; rfl
    | succ i => cases hs
  first := fun _ hr => absurd hr List.not_mem_nil

theorem Defined.define {w : Walk} {defs : List (ScopeId × Definition)} {uses : List Reference}
    (h : w.Defined defs uses) (hw : w.Formed) (hmade : ∀ r ∈ uses, r.origin < w.tree.size)
    (source : Source) (name : Label) (kind : DefinitionKind) :
    (w.define source name kind).Defined
      (defs ++ [(w.owner kind, ⟨.ofLabel source name, kind⟩)]) uses := by
  have hmild := ScopeTree.Mild.define ⟨.ofLabel source name, kind⟩
  have howner : w.owner kind < w.tree.size :=
    Nat.lt_of_le_of_lt (hw.tree.le_of_mem_chain hw.current_lt (hw.owner_mem kind)) hw.current_lt
  constructor
  case owner_lt =>
    intro d hd
    rw [define_eq, ScopeTree.define, ScopeTree.size_update]
    rcases List.mem_append.mp hd with hd | hd
    · exact h.owner_lt d hd
    · rw [List.mem_singleton.mp hd]
      exact howner
  case given =>
    intro i s hs n
    rw [define_eq, ScopeTree.define, ScopeTree.scope?_update] at hs
    obtain ⟨s₀, hs₀, rfl⟩ := Option.map_eq_some_iff.mp hs
    rw [List.filter_append, List.map_append, ← h.given i s₀ hs₀ n]
    by_cases hi : w.owner kind = i
    · rw [if_pos hi, Scope.definitionsOf_define]
      by_cases hn : n = (Identifier.ofLabel source name).name
      · simp [hi, hn]
      · simp [hi, hn, Ne.symm hn]
    · rw [if_neg hi]
      simp [hi]
  case first =>
    intro r hr hinit
    obtain ⟨d, hd, hmem, hname⟩ := h.first r hr hinit
    refine ⟨d, List.mem_append_left _ hd, ?_, hname⟩
    rw [define_eq, ScopeTree.define, hw.tree.chain_update hmild _ (hmade r hr)]
    exact hmem

theorem Defined.refer {w : Walk} {defs : List (ScopeId × Definition)} {uses : List Reference}
    (h : w.Defined defs uses) (source : Source) (name : Label) (access : Access) (init : Bool)
    (hfirst : init = true →
      ∃ d ∈ defs, d.1 ∈ w.tree.chain w.current ∧ d.2.name = .ofLabel source name) :
    (w.refer source name access init).Defined defs (uses ++ [w.use source name access init]) := by
  have htree := tree_refer source w name access init
  constructor
  case owner_lt =>
    rw [htree]
    exact h.owner_lt
  case given =>
    rw [htree]
    exact h.given
  case first =>
    intro r hr hinit
    rw [htree]
    rcases List.mem_append.mp hr with hr | hr
    · exact h.first r hr hinit
    · rw [List.mem_singleton.mp hr] at hinit ⊢
      exact hfirst hinit

theorem Defined.enter {w : Walk} {defs : List (ScopeId × Definition)} {uses : List Reference}
    (h : w.Defined defs uses) (hw : w.Formed) (hmade : ∀ r ∈ uses, r.origin < w.tree.size)
    (kind : ScopeKind) (span : Span) : (w.enter kind span).Defined defs uses := by
  have htree : (w.enter kind span).tree = w.tree.add w.current kind span := rfl
  refine h.congr ?_ (fun r hr => hw.tree.chain_add hw.current_lt kind span (hmade r hr)) ?_
  · rw [htree, ScopeTree.size_add]
    exact Nat.le_succ _
  · intro i s hs
    rw [htree, ScopeTree.scope?_add hw.current_lt] at hs
    split at hs
    · rename_i hi
      rw [← Option.some.inj hs]
      exact Or.inl ⟨fun _ => rfl, Nat.le_of_eq hi.symm⟩
    · obtain ⟨s₀, hs₀, rfl⟩ := Option.map_eq_some_iff.mp hs
      refine Or.inr ⟨s₀, hs₀, fun n => ?_⟩
      split <;> rfl

theorem Defined.leave {w : Walk} {defs : List (ScopeId × Definition)} {uses : List Reference}
    (h : w.Defined defs uses) (hmade : ∀ r ∈ uses, r.origin < w.tree.size) {top : OpenScope}
    {rest : List OpenScope} (hc : w.Closing top rest) : w.leave.Defined defs uses := by
  refine h.congr ?_ (fun r hr => hc.chain_leave (hmade r hr)) ?_
  · rw [hc.formed.leave_tree hc.stack, ScopeTree.size_update]
  · intro i s hs
    rw [hc.scope?_leave] at hs
    obtain ⟨s₀, hs₀, rfl⟩ := Option.map_eq_some_iff.mp hs
    refine Or.inr ⟨s₀, hs₀, fun n => ?_⟩
    split
    · exact Scope.definitionsOf_settleAll ..
    · rfl

/-- **At every state of a walk, every definition is where it should be.** -/
theorem Reached.defined {source : Source} {span : Span} {w : Walk} {log : List Record}
    (h : Reached source span w log) : w.Defined (definitionsIn log) (referencesIn log) := by
  induction h with
  | start => exact defined_start span
  | define name kind hw _ ih =>
    have hmade := fun r hr => (hw.resolved.made r hr).1
    rw [definitionsIn_append_definition, referencesIn_append_definition]
    exact ih.define hw.formed hmade source name kind
  | @declare w log name kind hw _ ih =>
    have hmade := fun r hr => (hw.resolved.made r hr).1
    have hmild := ScopeTree.Mild.define ⟨.ofLabel source name, kind⟩
    have hdefined := ih.define hw.formed hmade source name kind
    rw [List.append_cons, definitionsIn_append_reference, definitionsIn_append_definition,
      referencesIn_append_reference, referencesIn_append_definition]
    refine hdefined.refer source name .write true fun _ =>
      ⟨_, List.mem_append_right _ (List.mem_singleton_self _), ?_, rfl⟩
    show w.owner kind ∈ (w.tree.update _ _).chain w.current
    rw [hw.formed.tree.chain_update hmild _ hw.formed.current_lt]
    exact hw.formed.owner_mem kind
  | refer name access _ _ ih =>
    rw [definitionsIn_append_reference, referencesIn_append_reference]
    exact ih.refer source name access false fun he => absurd he Bool.false_ne_true
  | enter kind extent hw _ ih =>
    exact ih.enter hw.formed (fun r hr => (hw.resolved.made r hr).1) kind extent
  | @leave w log hw hopen ih =>
    obtain ⟨top, rest, hstack⟩ := List.exists_cons_of_ne_nil hopen
    exact ih.leave (fun r hr => (hw.resolved.made r hr).1) ⟨hw.formed, hstack⟩

end Walk

end ScopeLint
