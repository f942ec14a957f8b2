import Mathlib.Data.List.Basic
import ScopeLint.Proofs.Walk.Resolution

/-! # What a closing scope moves

When the innermost scope closes, the references that have come to it and whose
name it declares are in a binding from then on; the others come to the next open
scope, or to none when the global scope closes (`place?_leave`).  All other
references stay where they are.  With this every state of a walk keeps its
references where `Walk.Resolved` says (`Reached.resolved`).
-/

namespace ScopeLint

namespace Walk

/-- The situation before the innermost scope closes. -/
structure Closing (w : Walk) (top : OpenScope) (rest : List OpenScope) : Prop where
  formed : w.Formed
  stack : w.stack = top :: rest

namespace Closing

variable {w : Walk} {top : OpenScope} {rest : List OpenScope}

theorem opened (h : w.Closing top rest) : w.opened = top.id :: rest.map (·.id) := by
  rw [Walk.opened, h.stack]
  rfl

theorem opened_leave (h : w.Closing top rest) : w.leave.opened = rest.map (·.id) := by
  rw [Walk.opened_leave, h.opened]
  rfl

theorem top_mem (h : w.Closing top rest) : top.id ∈ w.opened := by
  rw [h.opened]
  exact List.mem_cons_self ..

theorem top_not_mem (h : w.Closing top rest) : top.id ∉ w.leave.opened := by
  have hnodup := h.formed.opened_nodup
  rw [h.opened] at hnodup
  rw [h.opened_leave]
  exact (List.nodup_cons.mp hnodup).1

theorem outer_ne (h : w.Closing top rest) {o : OpenScope} (ho : o ∈ rest) : o.id ≠ top.id := by
  intro he
  refine h.top_not_mem ?_
  rw [h.opened_leave, ← he]
  exact List.mem_map_of_mem ho

theorem mem_opened_leave (h : w.Closing top rest) {i : Nat} (hi : i ≠ top.id) :
    i ∈ w.leave.opened ↔ i ∈ w.opened := by
  rw [h.opened_leave, h.opened, List.mem_cons, or_iff_right hi]

theorem opened_eq_chain (h : w.Closing top rest) : w.opened = w.tree.chain top.id := by
  rw [h.formed.opened (h.stack ▸ List.cons_ne_nil _ _), current_cons h.stack]

theorem top_lt (h : w.Closing top rest) : top.id < w.tree.size :=
  h.formed.opened_lt h.top_mem

theorem scope?_leave (h : w.Closing top rest) (i : Nat) :
    w.leave.tree.scope? i =
      (w.tree.scope? i).map fun s => if top.id = i then s.settleAll top.waiting else s := by
  rw [h.formed.leave_tree h.stack, ScopeTree.scope?_update]

theorem chain_leave (h : w.Closing top rest) {i : Nat} (hi : i < w.tree.size) :
    w.leave.tree.chain i = w.tree.chain i := by
  rw [h.formed.leave_tree h.stack]
  exact h.formed.tree.chain_update (Scope.mild_settleAll _) _ hi

theorem declares_leave (h : w.Closing top rest) (i : Nat) (name : String) :
    w.leave.tree.declares i name = w.tree.declares i name := by
  rw [h.formed.leave_tree h.stack]
  exact ScopeTree.declares_update (fun s => Scope.declares_settleAll s _ name) i

theorem holds_leave_top (h : w.Closing top rest) (name : String) :
    w.leave.holds name top.id = w.tree.declares top.id name := by
  rw [holds_of_not_opened h.top_not_mem, h.declares_leave]

theorem holds_leave (h : w.Closing top rest) (name : String) {i : Nat} (hi : i ≠ top.id) :
    w.leave.holds name i = w.holds name i := by
  by_cases hmem : i ∈ w.opened
  · rw [holds_of_opened hmem, holds_of_opened ((h.mem_opened_leave hi).mpr hmem)]
  · rw [holds_of_not_opened hmem, holds_of_not_opened (mt (h.mem_opened_leave hi).mp hmem),
      h.declares_leave]

/-- A closing scope holds fewer names, and no other scope changes. -/
theorem not_holds_leave (h : w.Closing top rest) {name : String} {i : Nat}
    (hnot : w.holds name i = false) : w.leave.holds name i = false := by
  by_cases hi : i = top.id
  · rw [hi, holds_of_opened h.top_mem] at hnot
    exact absurd hnot Bool.noConfusion
  · rw [h.holds_leave name hi]
    exact hnot

/-- A reference that the closed scope does not declare goes on to the next open scope. -/
theorem place?_leave_moved (h : w.Closing top rest) {r : Reference}
    (hr : r.origin < w.tree.size) (hplace : w.place? r = some top.id)
    (hdeclares : w.tree.declares top.id r.name = false) :
    w.leave.place? r = w.leave.opened.head? := by
  have htree := h.formed.tree
  have hiff := (htree.find?_chain_iff hr _).mp hplace
  obtain ⟨inner, hinner⟩ := htree.chain_suffix hr hiff.1
  have hsplit : w.tree.chain r.origin = inner ++ top.id :: w.leave.opened := by
    rw [hinner, ← h.opened_eq_chain, h.opened, h.opened_leave]
  -- What comes before the closed scope holds nothing, and what comes after is open.
  have hnone : inner.find? (w.leave.holds r.name) = none := by
    refine List.find?_eq_none.mpr fun j hj => ?_
    have hpair := (htree.chain_decreasing hr).1
    rw [hsplit] at hpair
    have hlt := (List.pairwise_append.mp hpair).2.2 j hj _ (List.mem_cons_self ..)
    have hmem : j ∈ w.tree.chain r.origin := by
      rw [hsplit]; exact List.mem_append_left _ hj
    simp [h.not_holds_leave (hiff.2.2 j hmem hlt)]
  rw [place?, h.chain_leave hr, hsplit, List.find?_append, hnone, Option.none_or,
    List.find?_cons, h.holds_leave_top, hdeclares]
  cases hopened : w.leave.opened with
  | nil => rfl
  | cons next outer =>
    have hnext : w.leave.holds r.name next = true :=
      holds_of_opened (hopened ▸ List.mem_cons_self ..) r.name
    simp only [List.find?_cons, hnext, List.head?_cons]

/-- A reference that is elsewhere, or that the closed scope declares, stays. -/
theorem place?_leave_stays (h : w.Closing top rest) {r : Reference}
    (hr : r.origin < w.tree.size)
    (hstay : ¬ (w.place? r = some top.id ∧ w.tree.declares top.id r.name = false)) :
    w.leave.place? r = w.place? r := by
  have htree := h.formed.tree
  cases hplace : w.place? r with
  | none =>
    rw [place?, h.chain_leave hr]
    refine List.find?_eq_none.mpr fun j hj => ?_
    have hnot := List.find?_eq_none.mp hplace j hj
    simp [h.not_holds_leave (by simpa using hnot)]
  | some i =>
    have hiff := (htree.find?_chain_iff hr _).mp hplace
    rw [place?, h.chain_leave hr]
    refine (htree.find?_chain_iff hr _).mpr
      ⟨hiff.1, ?_, fun j hj hlt => h.not_holds_leave (hiff.2.2 j hj hlt)⟩
    by_cases hi : i = top.id
    · rw [hi, h.holds_leave_top]
      cases hd : w.tree.declares top.id r.name with
      | true => rfl
      | false => exact absurd ⟨hi ▸ hplace, hd⟩ hstay
    · rw [h.holds_leave r.name hi]
      exact hiff.2.1

/-- **Where a closing scope sends a reference.** -/
theorem place?_leave (h : w.Closing top rest) {r : Reference} (hr : r.origin < w.tree.size) :
    w.leave.place? r =
      if w.place? r = some top.id ∧ w.tree.declares top.id r.name = false then
        w.leave.opened.head?
      else w.place? r := by
  split
  · rename_i hmove
    exact h.place?_leave_moved hr hmove.1 hmove.2
  · rename_i hstay
    exact h.place?_leave_stays hr hstay

/-- The references that pass through the closed scope are those that have come to
it and whose name it does not declare. -/
theorem passed_leave_top (h : w.Closing top rest) {r : Reference} (hr : r.origin < w.tree.size) :
    w.leave.passed top.id r =
      (w.place? r == some top.id && !w.tree.declares top.id r.name) := by
  have hiff : w.place? r = some top.id ↔ _ := h.formed.tree.find?_chain_iff hr _
  rw [passed, h.chain_leave hr, Bool.eq_iff_iff]
  simp only [Bool.and_eq_true, List.contains_iff_mem, List.all_eq_true, Bool.or_eq_true,
    decide_eq_true_eq, Bool.not_eq_true', beq_iff_eq, hiff]
  constructor
  · rintro ⟨hmem, hall⟩
    refine ⟨⟨hmem, holds_of_opened h.top_mem r.name, fun j hj hlt => ?_⟩, ?_⟩
    · have hj' := (hall j hj).resolve_left (Nat.lt_asymm hlt)
      rwa [h.holds_leave r.name (Nat.ne_of_gt hlt)] at hj'
    · have htop := (hall top.id hmem).resolve_left (Nat.lt_irrefl _)
      rwa [h.holds_leave_top] at htop
  · rintro ⟨⟨hmem, _, hnot⟩, hdeclares⟩
    refine ⟨hmem, fun j hj => ?_⟩
    rcases Nat.lt_trichotomy j top.id with hlt | rfl | hlt
    · exact Or.inl hlt
    · exact Or.inr (h.holds_leave_top r.name ▸ hdeclares)
    · exact Or.inr (h.not_holds_leave (hnot j hj hlt))

/-- Through any other scope the same references have passed as before. -/
theorem passed_leave (h : w.Closing top rest) {r : Reference} (hr : r.origin < w.tree.size)
    {i : Nat} (hi : i ≠ top.id) : w.leave.passed i r = w.passed i r := by
  rw [passed, passed, h.chain_leave hr, Bool.eq_iff_iff]
  simp only [Bool.and_eq_true, List.contains_iff_mem, List.all_eq_true, Bool.or_eq_true,
    decide_eq_true_eq, Bool.not_eq_true']
  refine and_congr_right fun hmem => ⟨fun hall j hj => ?_, fun hall j hj => ?_⟩
  · rcases hall j hj with hlt | hnot
    · exact Or.inl hlt
    · by_cases hj' : j = top.id
      · -- A scope around the closed one is still open, so nothing has passed through it.
        subst hj'
        rcases Nat.lt_or_ge top.id i with hlt | hge
        · exact Or.inl hlt
        · have hopen : i ∈ w.opened := by
            rw [h.opened_eq_chain]
            exact h.formed.tree.mem_chain_of_le hr hmem hj hge
          have hstill := (hall i hmem).resolve_left (Nat.lt_irrefl _)
          rw [holds_of_opened ((h.mem_opened_leave hi).mpr hopen)] at hstill
          exact absurd hstill Bool.noConfusion
      · exact Or.inr (h.holds_leave r.name hj' ▸ hnot)
  · rcases hall j hj with hlt | hnot
    · exact Or.inl hlt
    · exact Or.inr (h.not_holds_leave hnot)

/-- A reference goes to a binding of the closed scope when it has come there and the
scope declares its name. -/
theorem settledIn_leave_top (h : w.Closing top rest) {r : Reference}
    (hr : r.origin < w.tree.size) :
    w.leave.settledIn top.id r =
      (w.place? r == some top.id && w.tree.declares top.id r.name) := by
  have hnot : w.leave.opened.contains top.id = false := by simpa using h.top_not_mem
  rw [settledIn, hnot, h.place?_leave hr, Bool.not_false, Bool.and_true]
  split
  · rename_i hmove
    have hhead : w.leave.opened.head? ≠ some top.id :=
      fun he => h.top_not_mem (List.mem_of_head? he)
    rw [hmove.2, Bool.and_false]
    exact beq_false_of_ne hhead
  · rename_i hstay
    by_cases hplace : w.place? r = some top.id
    · cases hd : w.tree.declares top.id r.name with
      | true => rw [Bool.and_true]
      | false => exact absurd ⟨hplace, hd⟩ hstay
    · rw [beq_false_of_ne hplace, Bool.false_and]

/-- The bindings of the other scopes get nothing. -/
theorem settledIn_leave (h : w.Closing top rest) {r : Reference} (hr : r.origin < w.tree.size)
    {i : Nat} (hi : i ≠ top.id) : w.leave.settledIn i r = w.settledIn i r := by
  have hcontains : w.leave.opened.contains i = w.opened.contains i := by
    rw [Bool.eq_iff_iff, List.contains_iff_mem, List.contains_iff_mem, h.mem_opened_leave hi]
  rw [settledIn, settledIn, hcontains, h.place?_leave hr]
  split
  · rename_i hmove
    rw [hmove.1, beq_false_of_ne (fun he => hi (Option.some.inj he).symm), Bool.false_and]
    cases hopen : w.opened.contains i with
    | true => rw [Bool.not_true, Bool.and_false]
    | false =>
      have hhead : w.leave.opened.head? ≠ some i := by
        intro he
        have hmem : i ∈ w.opened := (h.mem_opened_leave hi).mp (List.mem_of_head? he)
        rw [← List.contains_iff_mem, hopen] at hmem
        exact Bool.noConfusion hmem
      rw [beq_false_of_ne hhead, Bool.false_and]
  · rfl

/-- A reference waits no longer when the closed scope took it. -/
theorem waits_leave (h : w.Closing top rest) (hrest : rest ≠ []) {r : Reference}
    (hr : r.origin < w.tree.size) :
    w.leave.waits r =
      (w.waits r && !(w.place? r == some top.id && w.tree.declares top.id r.name)) := by
  obtain ⟨next, outer, rfl⟩ := List.exists_cons_of_ne_nil hrest
  rw [waits, waits, h.place?_leave hr]
  split
  · rename_i hmove
    have htop : w.opened.contains top.id = true := List.contains_iff_mem.mpr h.top_mem
    rw [hmove.1, hmove.2, h.opened_leave, Option.any_some, htop]
    simp
  · rename_i hstay
    cases hplace : w.place? r with
    | none => rfl
    | some i =>
      rw [Option.any_some, Option.any_some]
      by_cases hi : i = top.id
      · subst hi
        have hnot : w.leave.opened.contains top.id = false := by simpa using h.top_not_mem
        cases hd : w.tree.declares top.id r.name with
        | true => rw [hnot, beq_self_eq_true, Bool.true_and, Bool.not_true, Bool.and_false]
        | false => exact absurd ⟨hplace, hd⟩ hstay
      · have hne : (some i == some top.id) = false :=
          beq_false_of_ne fun he => hi (Option.some.inj he)
        rw [hne, Bool.false_and, Bool.not_false, Bool.and_true, Bool.eq_iff_iff,
          List.contains_iff_mem, List.contains_iff_mem, h.mem_opened_leave hi]

/-- The queues that a closing scope leaves. -/
theorem stack_leave (h : w.Closing top rest) :
    w.leave.stack =
      handUp (top.waiting.filter fun r => !w.tree.declares top.id r.name) rest := by
  obtain ⟨s, hs⟩ := ScopeTree.scope?_isSome h.top_lt
  rw [leave_eq h.stack hs]
  simp only [ScopeTree.declares_of_scope hs]

end Closing

/-! ### Every step keeps the references where they should be -/

theorem Resolved.leave_queued {w : Walk} {uses : List Reference} (h : w.Resolved uses)
    {top : OpenScope} {rest : List OpenScope} (hc : w.Closing top rest) :
    ∀ o ∈ w.leave.stack, ∀ r ∈ o.waiting, w.leave.place? r = some o.id := by
  have hplaced : ∀ o ∈ rest, ∀ r ∈ o.waiting, w.leave.place? r = some o.id := by
    intro o ho r hr
    have hmem : o ∈ w.stack := hc.stack ▸ List.mem_cons_of_mem _ ho
    have hplace := h.queued o hmem r hr
    have hne := hc.outer_ne ho
    rw [hc.place?_leave (h.made r (h.mem_of_waiting hmem hr)).1, hplace,
      if_neg fun hmove => hne (Option.some.inj hmove.1)]
  intro o ho r hr
  rw [hc.stack_leave] at ho
  cases rest with
  | nil => exact absurd ho List.not_mem_nil
  | cons next outer =>
    rcases List.mem_cons.mp ho with rfl | ho
    · rcases List.mem_append.mp hr with hr | hr
      · exact hplaced next (List.mem_cons_self ..) r hr
      · obtain ⟨hwaiting, hdeclares⟩ := List.mem_filter.mp hr
        have htop : top ∈ w.stack := hc.stack ▸ List.mem_cons_self ..
        have hplace := h.queued top htop r hwaiting
        rw [hc.place?_leave (h.made r (h.mem_of_waiting htop hwaiting)).1,
          if_pos ⟨hplace, by simpa using hdeclares⟩, hc.opened_leave]
        rfl
    · exact hplaced o (List.mem_cons_of_mem _ ho) r hr

theorem Resolved.leave_pending {w : Walk} {uses : List Reference} (h : w.Resolved uses)
    {top : OpenScope} {rest : List OpenScope} (hc : w.Closing top rest) :
    uses.filter w.leave.waits = w.leave.stack.reverse.flatMap (·.waiting) := by
  rw [hc.stack_leave]
  cases rest with
  | nil =>
    refine List.filter_eq_nil_iff.mpr fun r _ => ?_
    rw [waits, hc.opened_leave]
    cases w.leave.place? r <;> simp
  | cons next outer =>
    -- Of the references that waited, those that the closed scope declares are gone.
    have hgone : uses.filter w.leave.waits =
        (uses.filter w.waits).filter fun r =>
          !(w.place? r == some top.id && w.tree.declares top.id r.name) := by
      rw [List.filter_filter]
      refine List.filter_congr fun r hr => ?_
      rw [hc.waits_leave (List.cons_ne_nil _ _) (h.made r hr).1, Bool.and_comm]
    have houter : ∀ o ∈ next :: outer, o.waiting.filter
        (fun r => !(w.place? r == some top.id && w.tree.declares top.id r.name)) = o.waiting := by
      intro o ho
      refine List.filter_eq_self.mpr fun r hr => ?_
      rw [h.queued o (hc.stack ▸ List.mem_cons_of_mem _ ho) r hr]
      have hne := hc.outer_ne ho
      rw [beq_false_of_ne fun he => hne (Option.some.inj he), Bool.false_and, Bool.not_false]
    have htop : top.waiting.filter
        (fun r => !(w.place? r == some top.id && w.tree.declares top.id r.name)) =
        top.waiting.filter fun r => !w.tree.declares top.id r.name := by
      refine List.filter_congr fun r hr => ?_
      rw [h.queued top (hc.stack ▸ List.mem_cons_self ..) r hr, beq_self_eq_true, Bool.true_and]
    rw [hgone, h.pending, hc.stack]
    simp only [handUp, List.reverse_cons, List.flatMap_append, List.flatMap_singleton,
      List.filter_append, List.append_assoc, htop, houter next (List.mem_cons_self ..)]
    congr 1
    rw [List.filter_flatMap]
    exact List.flatMap_congr fun o ho =>
      houter o (List.mem_cons_of_mem _ (List.mem_reverse.mp ho))

/-- A binding of the closed scope is given what came to it of that name. -/
theorem Resolved.leave_given {w : Walk} {uses : List Reference} (h : w.Resolved uses)
    {top : OpenScope} {rest : List OpenScope} (hc : w.Closing top rest) {i : Nat} {s : Scope}
    (hs : w.leave.tree.scope? i = some s) (n : String) :
    s.referencesOf n = ((uses.filter (w.leave.settledIn i)).filter (·.name = n)).map
      (·.resolvedIn i) := by
  have hwaiting := h.waiting_eq hc.formed hc.stack
  rw [hc.scope?_leave] at hs
  obtain ⟨s₀, hs₀, rfl⟩ := Option.map_eq_some_iff.mp hs
  by_cases hi : top.id = i
  · subst hi
    -- Nothing was settled in the scope while it was open.
    have hbefore : s₀.referencesOf n = [] := by
      have hnone : uses.filter (w.settledIn top.id) = [] := by
        refine List.filter_eq_nil_iff.mpr fun r _ => ?_
        simp [settledIn, hc.top_mem]
      rw [h.given _ s₀ hs₀, hnone]
      rfl
    rw [if_pos rfl, Scope.referencesOf_settleAll, hbefore, List.nil_append,
      hc.formed.tree.id_eq _ s₀ hs₀, ← hwaiting, ← ScopeTree.declares_of_scope hs₀,
      List.filter_congr fun r hr => hc.settledIn_leave_top (h.made r hr).1,
      List.filter_filter, List.filter_filter]
    cases hd : w.tree.declares top.id n with
    | true =>
      rw [if_pos rfl]
      congr 1
      refine List.filter_congr fun r _ => ?_
      by_cases hn : r.name = n <;> simp [hn, hd]
    | false =>
      rw [if_neg Bool.false_ne_true, eq_comm, List.map_eq_nil_iff]
      refine List.filter_eq_nil_iff.mpr fun r _ => ?_
      by_cases hn : r.name = n <;> simp [hn, hd]
  · rw [if_neg hi, h.given i s₀ hs₀]
    congr 2
    exact List.filter_congr fun r hr => (hc.settledIn_leave (h.made r hr).1 (Ne.symm hi)).symm

/-- Through the closed scope passes what came to it of names that it does not declare. -/
theorem Resolved.leave_through {w : Walk} {uses : List Reference} (h : w.Resolved uses)
    {top : OpenScope} {rest : List OpenScope} (hc : w.Closing top rest) {i : Nat} {s : Scope}
    (hs : w.leave.tree.scope? i = some s) : s.through = uses.filter (w.leave.passed i) := by
  have hwaiting := h.waiting_eq hc.formed hc.stack
  rw [hc.scope?_leave] at hs
  obtain ⟨s₀, hs₀, rfl⟩ := Option.map_eq_some_iff.mp hs
  by_cases hi : top.id = i
  · subst hi
    have hbefore : s₀.through = [] := by
      rw [h.through _ s₀ hs₀]
      exact List.filter_eq_nil_iff.mpr fun r _ => by simp [passed_of_opened hc.top_mem]
    rw [if_pos rfl, Scope.through_settleAll, hbefore, List.nil_append, ← hwaiting,
      List.filter_congr fun r hr => hc.passed_leave_top (h.made r hr).1, List.filter_filter]
    refine List.filter_congr fun r _ => ?_
    rw [Bool.and_comm, ScopeTree.declares_of_scope hs₀]
  · rw [if_neg hi, h.through i s₀ hs₀]
    exact List.filter_congr fun r hr => (hc.passed_leave (h.made r hr).1 (Ne.symm hi)).symm

theorem Resolved.leave {w : Walk} {uses : List Reference} (h : w.Resolved uses)
    {top : OpenScope} {rest : List OpenScope} (hc : w.Closing top rest) :
    w.leave.Resolved uses where
  made := by
    intro r hr
    rw [hc.formed.leave_tree hc.stack, ScopeTree.size_update]
    exact h.made r hr
  queued := h.leave_queued hc
  pending := h.leave_pending hc
  given := fun _ _ hs => h.leave_given hc hs
  through := fun _ _ hs => h.leave_through hc hs

/-- **At every state of a walk, every reference is where it should be.** -/
theorem Reached.resolved {source : Source} {span : Span} {w : Walk} {log : List Record}
    (h : Reached source span w log) : w.Resolved (referencesIn log) := by
  induction h with
  | start => exact resolved_start span
  | define name kind hw hopen ih =>
    rw [referencesIn_append_definition]
    exact ih.define hw.formed hopen source name kind
  | @declare w log name kind hw hopen ih =>
    have hdefined := ih.define hw.formed hopen source name kind
    have hboth := hdefined.refer (hw.formed.define source name kind) hopen source name .write true
    rw [List.append_cons, referencesIn_append_reference, referencesIn_append_definition]
    exact hboth
  | refer name access hw hopen ih =>
    rw [referencesIn_append_reference]
    exact ih.refer hw.formed hopen source name access false
  | enter kind extent hw _ ih => exact ih.enter hw.formed kind extent
  | @leave w log hw hopen ih =>
    obtain ⟨top, rest, hstack⟩ := List.exists_cons_of_ne_nil hopen
    exact ih.leave ⟨hw.formed, hstack⟩

end Walk

end ScopeLint
