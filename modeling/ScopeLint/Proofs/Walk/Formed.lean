import ScopeLint.Proofs.Walk.Run

/-! # The open scopes of a walk

At every state of a walk the tree so far is formed, and the open scopes are the
chain of the innermost one (`Walk.Formed`).  So each name that is declared has an
owner on the chain of the current scope.
-/

namespace ScopeLint

open Syntax (Label)

namespace Walk

/-- **What every state of a walk keeps.** -/
structure Formed (w : Walk) : Prop where
  tree : w.tree.Formed
  current_lt : w.current < w.tree.size
  opened : w.stack ≠ [] → w.opened = w.tree.chain w.current

theorem current_eq (w : Walk) : w.current = w.opened.head?.getD ScopeTree.rootId := by
  unfold current opened
  cases w.stack <;> rfl

theorem current_congr {w w' : Walk} (h : w'.opened = w.opened) : w'.current = w.current := by
  rw [current_eq, current_eq, h]

@[simp] theorem current_enter (w : Walk) (kind : ScopeKind) (span : Span) :
    (w.enter kind span).current = w.tree.size := rfl

theorem current_cons {w : Walk} {top : OpenScope} {rest : List OpenScope}
    (hw : w.stack = top :: rest) : w.current = top.id := by
  rw [current, hw]
  rfl

theorem Formed.mem_opened {w : Walk} (h : w.Formed) (hopen : w.stack ≠ []) (i : Nat) :
    i ∈ w.opened ↔ i ∈ w.tree.chain w.current := by
  rw [h.opened hopen]

theorem Formed.opened_lt {w : Walk} (h : w.Formed) {i : Nat} (hi : i ∈ w.opened) :
    i < w.tree.size := by
  have hopen : w.stack ≠ [] := by
    intro he
    rw [Walk.opened, he] at hi
    exact absurd hi (List.not_mem_nil)
  rw [h.opened hopen] at hi
  exact Nat.lt_of_le_of_lt (h.tree.le_of_mem_chain h.current_lt hi) h.current_lt

theorem Formed.opened_decreasing {w : Walk} (h : w.Formed) :
    w.opened.Pairwise (fun a b : Nat => b < a) := by
  by_cases hopen : w.stack = []
  · rw [Walk.opened, hopen]
    exact List.Pairwise.nil
  · rw [h.opened hopen]
    exact (h.tree.chain_decreasing h.current_lt).1

theorem Formed.opened_nodup {w : Walk} (h : w.Formed) : w.opened.Nodup :=
  h.opened_decreasing.imp fun hlt => Nat.ne_of_gt hlt

/-- A name declared now belongs to a scope on the chain of the current one. -/
theorem Formed.owner_mem {w : Walk} (h : w.Formed) (kind : DefinitionKind) :
    w.owner kind ∈ w.tree.chain w.current := by
  unfold owner
  split
  · obtain ⟨v, hv, hmem⟩ := h.tree.variableScope?_mem h.current_lt
    rw [hv]
    exact hmem
  · exact h.tree.mem_chain_self h.current_lt

/-! ### Every step keeps it -/

theorem formed_start (span : Span) : (start span).Formed where
  tree := ScopeTree.formed_ofSpan span
  current_lt := Nat.one_pos
  opened := fun _ => (ScopeTree.formed_ofSpan span).chain_root.symm

theorem Formed.define {w : Walk} (h : w.Formed) (source : Source) (name : Label)
    (kind : DefinitionKind) : (w.define source name kind).Formed := by
  have hmild := ScopeTree.Mild.define ⟨.ofLabel source name, kind⟩
  constructor
  case tree =>
    exact h.tree.update hmild (w.owner kind)
  case current_lt =>
    show w.current < (w.tree.update (w.owner kind) _).size
    rw [ScopeTree.size_update]
    exact h.current_lt
  case opened =>
    intro hopen
    show w.opened = (w.tree.update (w.owner kind) _).chain w.current
    rw [h.tree.chain_update hmild _ h.current_lt]
    exact h.opened hopen

theorem Formed.refer {w : Walk} (h : w.Formed) (source : Source) (name : Label) (access : Access)
    (init : Bool) : (w.refer source name access init).Formed := by
  have hopened := opened_refer source w name access init
  have hcurrent := current_congr hopened
  have htree := tree_refer source w name access init
  constructor
  case tree =>
    rw [htree]
    exact h.tree
  case current_lt =>
    rw [hcurrent, htree]
    exact h.current_lt
  case opened =>
    intro hopen
    rw [hopened, hcurrent, htree]
    exact h.opened (stack_ne_nil_of_opened hopened.symm hopen)

theorem Formed.enter {w : Walk} (h : w.Formed) (hopen : w.stack ≠ []) (kind : ScopeKind)
    (span : Span) : (w.enter kind span).Formed where
  tree := h.tree.add h.current_lt kind span
  current_lt := by
    show w.tree.size < (w.tree.add w.current kind span).size
    rw [ScopeTree.size_add]
    exact Nat.lt_succ_self _
  opened := fun _ => by
    show w.tree.size :: w.opened = (w.tree.add w.current kind span).chain w.tree.size
    rw [h.tree.chain_add_new h.current_lt, h.opened hopen]

/-- The tree that a closing scope leaves. -/
theorem Formed.leave_tree {w : Walk} (h : w.Formed) {top : OpenScope} {rest : List OpenScope}
    (hw : w.stack = top :: rest) :
    w.leave.tree = w.tree.update top.id (·.settleAll top.waiting) := by
  have hlt : top.id < w.tree.size := current_cons hw ▸ h.current_lt
  obtain ⟨s, hs⟩ := ScopeTree.scope?_isSome hlt
  rw [leave_eq hw hs]

theorem Formed.leave {w : Walk} (h : w.Formed) : w.leave.Formed := by
  cases hw : w.stack with
  | nil =>
    have hkeep : w.leave = w := by rw [Walk.leave, hw]
    rw [hkeep]
    exact h
  | cons top rest =>
    have hcurrent : w.current = top.id := current_cons hw
    have htree := h.leave_tree hw
    have hmild := Scope.mild_settleAll top.waiting
    have htail : w.leave.opened = (w.tree.chain top.id).tail := by
      rw [opened_leave, h.opened (hw ▸ List.cons_ne_nil _ _), hcurrent]
    have hlt : top.id < w.tree.size := hcurrent ▸ h.current_lt
    rw [h.tree.chain_eq hlt, List.tail_cons] at htail
    -- What is left open is the chain of the parent, or nothing.
    have hkey : w.leave.current < w.tree.size ∧
        (w.leave.stack ≠ [] → w.leave.opened = w.tree.chain w.leave.current) := by
      cases hp : w.tree.parent? top.id with
      | none =>
        rw [hp] at htail
        refine ⟨?_, fun hopen => absurd (List.map_eq_nil_iff.mp htail) hopen⟩
        rw [current_eq, htail]
        exact h.tree.pos
      | some parent =>
        rw [hp] at htail
        replace htail : w.leave.opened = w.tree.chain parent := htail
        have hparent : parent < w.tree.size := Nat.lt_trans (h.tree.parent_lt _ _ hp) hlt
        have hhead : w.leave.current = parent := by
          rw [current_eq, htail, h.tree.chain_eq hparent]
          rfl
        rw [hhead]
        exact ⟨hparent, fun _ => htail⟩
    constructor
    · rw [htree]; exact h.tree.update hmild _
    · rw [htree, ScopeTree.size_update]; exact hkey.1
    · intro hopen
      rw [htree, h.tree.chain_update hmild _ hkey.1]
      exact hkey.2 hopen

/-- **Every state of a walk is formed.** -/
theorem Reached.formed {source : Source} {span : Span} {w : Walk} {log : List Record}
    (h : Reached source span w log) : w.Formed := by
  induction h with
  | start => exact formed_start span
  | define name kind _ _ ih => exact ih.define source name kind
  | declare name kind _ _ ih => exact (ih.define source name kind).refer source name .write true
  | refer name access _ _ ih => exact ih.refer source name access false
  | enter kind extent _ hopen ih => exact ih.enter hopen kind extent
  | leave _ _ ih => exact ih.leave

end Walk

/-- **The scope tree of a program is formed.** -/
theorem analyze_formed (program : Syntax.Program) : (analyze program).Formed := by
  obtain ⟨w, hw, htree, _⟩ := analyze_reached program
  rw [← htree]
  exact hw.formed.tree

end ScopeLint
