import ScopeLint.Proofs.ScopeTree.Linked
import ScopeLint.Proofs.Walk.Formed

/-! # What bindings hold

A binding is made by a definition of its name, and from then on it gets
definitions and references of that name only, the references as resolved in its
scope (`Binding.Sound`).  Each operation on a scope keeps this, so it holds of
every scope at every state of a walk (`Reached.sound`).

Such bindings in a linked arena are all that validation asks for
(`Linked.validate_eq`).
-/

namespace ScopeLint

open Syntax (Program)

/-- **A binding of the scope of an id holds what belongs to it**: it is declared,
and all that it holds has its name. -/
structure Binding.Sound (id : ScopeId) (b : Binding) : Prop where
  declared : b.definitions ≠ []
  definition_name : ∀ d ∈ b.definitions, d.name.name = b.name
  reference_name : ∀ r ∈ b.references, r.name = b.name
  resolved : ∀ r ∈ b.references, r.resolved = some id

/-- All bindings of a scope hold what belongs to them. -/
def Scope.Sound (s : Scope) : Prop := ∀ b ∈ s.bindings, b.Sound s.id

namespace Scope

/-! ### One scope -/

theorem mem_addDefinition {d : Definition} {b : Binding} : ∀ {bs : List Binding},
    b ∈ addDefinition d bs → b ∈ bs ∨ b = ⟨d.name.name, [d], []⟩ ∨
      ∃ b₀ ∈ bs, b₀.name = d.name.name ∧ b = { b₀ with definitions := b₀.definitions ++ [d] }
  | [], h => Or.inr (Or.inl (List.mem_singleton.mp h))
  | first :: rest, h => by
      unfold addDefinition at h
      split at h
      · rename_i hname
        rcases List.mem_cons.mp h with rfl | h
        · exact Or.inr (Or.inr ⟨first, List.mem_cons_self .., hname, rfl⟩)
        · exact Or.inl (List.mem_cons_of_mem _ h)
      · rcases List.mem_cons.mp h with rfl | h
        · exact Or.inl (List.mem_cons_self ..)
        · rcases mem_addDefinition h with h | h | ⟨b₀, hb₀, h⟩
          · exact Or.inl (List.mem_cons_of_mem _ h)
          · exact Or.inr (Or.inl h)
          · exact Or.inr (Or.inr ⟨b₀, List.mem_cons_of_mem _ hb₀, h⟩)

theorem mem_addReference {r : Reference} {b : Binding} : ∀ {bs : List Binding},
    b ∈ addReference r bs → b ∈ bs ∨
      ∃ b₀ ∈ bs, b₀.name = r.name ∧ b = { b₀ with references := b₀.references ++ [r] }
  | [], h => Or.inl h
  | first :: rest, h => by
      unfold addReference at h
      split at h
      · rename_i hname
        rcases List.mem_cons.mp h with rfl | h
        · exact Or.inr ⟨first, List.mem_cons_self .., hname, rfl⟩
        · exact Or.inl (List.mem_cons_of_mem _ h)
      · rcases List.mem_cons.mp h with rfl | h
        · exact Or.inl (List.mem_cons_self ..)
        · rcases mem_addReference h with h | ⟨b₀, hb₀, h⟩
          · exact Or.inl (List.mem_cons_of_mem _ h)
          · exact Or.inr ⟨b₀, List.mem_cons_of_mem _ hb₀, h⟩

theorem Sound.define {s : Scope} (h : s.Sound) (d : Definition) : (s.define d).Sound := by
  intro b hb
  show b.Sound s.id
  rcases mem_addDefinition hb with hb | rfl | ⟨b₀, hb₀, hname, rfl⟩
  · exact h b hb
  · constructor
    · exact List.cons_ne_nil _ _
    · intro d' hd
      rw [List.mem_singleton.mp hd]
    · exact fun r hr => absurd hr List.not_mem_nil
    · exact fun r hr => absurd hr List.not_mem_nil
  · have hold := h b₀ hb₀
    constructor
    · exact List.append_ne_nil_of_left_ne_nil hold.declared _
    · intro d' hd
      rcases List.mem_append.mp hd with hd | hd
      · exact hold.definition_name d' hd
      · rw [List.mem_singleton.mp hd]
        exact hname.symm
    · exact hold.reference_name
    · exact hold.resolved

theorem Sound.resolve {s : Scope} (h : s.Sound) (r : Reference) : (s.resolve r).Sound := by
  intro b hb
  show b.Sound s.id
  rcases mem_addReference hb with hb | ⟨b₀, hb₀, hname, rfl⟩
  · exact h b hb
  · have hold := h b₀ hb₀
    constructor
    · exact hold.declared
    · exact hold.definition_name
    · intro r' hr
      rcases List.mem_append.mp hr with hr | hr
      · exact hold.reference_name r' hr
      · rw [List.mem_singleton.mp hr]
        exact hname.symm
    · intro r' hr
      rcases List.mem_append.mp hr with hr | hr
      · exact hold.resolved r' hr
      · rw [List.mem_singleton.mp hr]

theorem Sound.settleAll (rs : List Reference) :
    ∀ {s : Scope}, s.Sound → (s.settleAll rs).Sound := by
  induction rs with
  | nil =>
    intro s h
    exact h
  | cons r rs ih =>
    intro s h
    rw [settleAll_cons]
    refine ih ?_
    unfold settle
    split
    · exact h.resolve r
    · exact h

end Scope

/-! ### All scopes -/

namespace ScopeTree

/-- The bindings of every scope hold what belongs to them. -/
def Sound (t : ScopeTree) : Prop := ∀ (i : Nat) s, t.scope? i = some s → s.Sound

theorem Sound.update {t : ScopeTree} (h : t.Sound) {f : Scope → Scope}
    (hf : ∀ s : Scope, s.Sound → (f s).Sound) (id : Nat) : (t.update id f).Sound := by
  intro i s hs
  rw [scope?_update] at hs
  obtain ⟨s₀, hs₀, rfl⟩ := Option.map_eq_some_iff.mp hs
  by_cases hi : id = i
  · rw [if_pos hi]
    exact hf s₀ (h i s₀ hs₀)
  · rw [if_neg hi]
    exact h i s₀ hs₀

theorem Sound.add {t : ScopeTree} (h : t.Sound) (parent : Nat) (kind : ScopeKind) (span : Span) :
    (t.add parent kind span).Sound := by
  intro i s hs
  rw [scope?_add_eq] at hs
  obtain ⟨s₀, hs₀, rfl⟩ := Option.map_eq_some_iff.mp hs
  have hold : s₀.Sound := by
    split at hs₀
    · rw [← Option.some.inj hs₀]
      exact fun b hb => absurd hb List.not_mem_nil
    · exact h i s₀ hs₀
  split <;> exact hold

/-! ### Validation -/

/-- There is nothing wrong with a binding that holds what belongs to it. -/
theorem bindingMalformation?_eq_none {s : Scope} {b : Binding} (hb : b.Sound s.id) :
    bindingMalformation? s b = none := by
  have hdeclared : b.definitions.isEmpty = false := by
    rw [List.isEmpty_eq_false_iff]
    exact hb.declared
  have hown : b.references.any (·.resolved != some s.id) = false := by
    refine List.any_eq_false.mpr fun r hr => ?_
    rw [hb.resolved r hr]
    simp
  rw [bindingMalformation?, hdeclared, hown]
  rfl

/-- Children that name their parent and bindings that hold what belongs to them are
accepted. -/
theorem Linked.validate_eq {t : ScopeTree} (h : t.Linked) (hsound : t.Sound) :
    t.validate = .ok () := by
  refine validate_eq_ok_iff.mpr fun s hs => ?_
  obtain ⟨i, hi⟩ := List.mem_iff_getElem?.mp hs
  refine ⟨fun c hc => ?_, fun b hb => bindingMalformation?_eq_none (hsound i s hi b hb)⟩
  rw [h.id_eq i s hi]
  exact h.child i s hi c hc

end ScopeTree

namespace Walk

/-- **At every state of a walk bindings hold what belongs to them.** -/
theorem Reached.sound {source : Source} {span : Span} {w : Walk} {log : List Record}
    (h : Reached source span w log) : w.tree.Sound := by
  induction h with
  | start =>
    intro i s hs
    cases i with
    | zero =>
      rw [← Option.some.inj hs]
      exact fun b hb => absurd hb List.not_mem_nil
    | succ i => cases hs
  | define name kind _ _ ih => exact ih.update (fun s hs => hs.define _) _
  | declare name kind _ _ ih =>
    rw [tree_refer]
    exact ih.update (fun s hs => hs.define _) _
  | refer name access _ _ ih =>
    rw [tree_refer]
    exact ih
  | enter kind extent _ _ ih => exact ih.add _ kind extent
  | leave hw hopen ih =>
    obtain ⟨top, rest, hstack⟩ := List.exists_cons_of_ne_nil hopen
    rw [hw.formed.leave_tree hstack]
    exact ih.update (fun s hs => hs.settleAll _) _

end Walk

/-- **The bindings of a program hold what belongs to them.** -/
theorem analyze_sound (program : Program) : (analyze program).Sound := by
  obtain ⟨w, hw, htree, _⟩ := analyze_reached program
  rw [← htree]
  exact hw.sound

end ScopeLint
