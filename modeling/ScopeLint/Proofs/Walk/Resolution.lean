import Mathlib.Data.List.Find
import ScopeLint.Proofs.Walk.Formed

/-! # Where references end

At any state of a walk, a scope **holds** a name when it is still open or
declares the name.  A reference has come to the nearest scope that holds its name
(`Walk.place?`), and has passed through all scopes before that one.  When that
scope is open the reference waits there; else it is in a binding of the scope.
`Walk.Resolved` says this of all references at once, and that each queue, each
binding and each list of references passed through keeps them in the order in
which they are made.

A definition changes nothing of this, for it goes to an open scope, which holds
every name anyway.  Only a closing scope moves references (`place?_leave`).
-/

namespace ScopeLint

open Syntax (Label)

@[simp] theorem referencesIn_append_definition (log : List Record) (source : Source) (w : Walk)
    (name : Label) (kind : DefinitionKind) :
    referencesIn (log ++ [w.declared source name kind]) = referencesIn log := by
  simp [referencesIn, Record.reference?, Walk.declared]

@[simp] theorem referencesIn_append_reference (log : List Record) (r : Reference) :
    referencesIn (log ++ [.reference r]) = referencesIn log ++ [r] := by
  simp [referencesIn, Record.reference?]

namespace Walk

/-- Whether a reference of a name cannot leave a scope: the scope is still open,
or it declares the name. -/
def holds (w : Walk) (name : String) (i : Nat) : Bool :=
  w.opened.contains i || w.tree.declares i name

/-- The scope that a reference has come to. -/
def place? (w : Walk) (r : Reference) : Option Nat :=
  (w.tree.chain r.origin).find? (w.holds r.name)

/-- Whether a reference still waits at an open scope. -/
def waits (w : Walk) (r : Reference) : Bool := (w.place? r).any w.opened.contains

/-- Whether a reference is in a binding of a scope. -/
def settledIn (w : Walk) (i : Nat) (r : Reference) : Bool :=
  w.place? r == some i && !w.opened.contains i

/-- Whether a reference has passed through a scope. -/
def passed (w : Walk) (i : Nat) (r : Reference) : Bool :=
  (w.tree.chain r.origin).contains i &&
    (w.tree.chain r.origin).all fun j => j < i || !w.holds r.name j

/-- **Where every reference is at a state of a walk.** -/
structure Resolved (w : Walk) (uses : List Reference) : Prop where
  made : ∀ r ∈ uses, r.origin < w.tree.size ∧ r.resolved = none
  queued : ∀ o ∈ w.stack, ∀ r ∈ o.waiting, w.place? r = some o.id
  pending : uses.filter w.waits = w.stack.reverse.flatMap (·.waiting)
  given : ∀ (i : Nat) s, w.tree.scope? i = some s → ∀ name : String,
    s.referencesOf name =
      ((uses.filter (w.settledIn i)).filter (·.name = name)).map (·.resolvedIn i)
  through : ∀ (i : Nat) s, w.tree.scope? i = some s → s.through = uses.filter (w.passed i)

theorem holds_of_opened {w : Walk} {i : Nat} (h : i ∈ w.opened) (name : String) :
    w.holds name i = true := by
  simp [holds, h]

theorem holds_of_not_opened {w : Walk} {i : Nat} (h : i ∉ w.opened) (name : String) :
    w.holds name i = w.tree.declares i name := by
  simp [holds, h]

/-- Nothing has passed through an open scope. -/
theorem passed_of_opened {w : Walk} {i : Nat} (h : i ∈ w.opened) (r : Reference) :
    w.passed i r = false := by
  unfold passed
  cases hmem : (w.tree.chain r.origin).contains i with
  | false => rfl
  | true =>
    rw [Bool.true_and]
    exact List.all_eq_false.mpr
      ⟨i, List.contains_iff_mem.mp hmem, by simp [holds_of_opened h]⟩

theorem Resolved.mem_of_waiting {w : Walk} {uses : List Reference} (h : w.Resolved uses)
    {o : OpenScope} (ho : o ∈ w.stack) {r : Reference} (hr : r ∈ o.waiting) : r ∈ uses := by
  have hmem : r ∈ uses.filter w.waits := by
    rw [h.pending]
    exact List.mem_flatMap.mpr ⟨o, List.mem_reverse.mpr ho, hr⟩
  exact (List.mem_filter.mp hmem).1

/-- What waits at an open scope are the references that have come to it. -/
theorem Resolved.waiting_eq {w : Walk} {uses : List Reference} (h : w.Resolved uses)
    (hw : w.Formed) {top : OpenScope} {rest : List OpenScope} (hstack : w.stack = top :: rest) :
    uses.filter (fun r => w.place? r == some top.id) = top.waiting := by
  have htop : top.id ∈ w.opened := by rw [opened, hstack]; exact List.mem_cons_self ..
  have hnodup : top.id ∉ rest.map (·.id) := by
    have hpair := hw.opened_nodup
    rw [opened, hstack] at hpair
    exact (List.nodup_cons.mp hpair).1
  -- Only references that wait have come to an open scope.
  have hsub : uses.filter (fun r => w.place? r == some top.id) =
      (uses.filter w.waits).filter (fun r => w.place? r == some top.id) := by
    rw [List.filter_filter]
    refine List.filter_congr fun r _ => ?_
    by_cases hp : w.place? r = some top.id <;> simp [hp, waits, htop]
  have houter : (rest.reverse.flatMap (·.waiting)).filter
      (fun r => w.place? r == some top.id) = [] := by
    refine List.filter_eq_nil_iff.mpr fun r hr he => ?_
    obtain ⟨o, ho, hro⟩ := List.mem_flatMap.mp hr
    have ho' : o ∈ rest := List.mem_reverse.mp ho
    have hplace := h.queued o (hstack ▸ List.mem_cons_of_mem _ ho') r hro
    rw [hplace] at he
    have hid : o.id = top.id := by simpa using he
    exact hnodup (hid ▸ List.mem_map_of_mem ho')
  have hown : top.waiting.filter (fun r => w.place? r == some top.id) = top.waiting := by
    refine List.filter_eq_self.mpr fun r hr => ?_
    rw [h.queued top (hstack ▸ List.mem_cons_self ..) r hr]
    exact beq_self_eq_true _
  rw [hsub, h.pending, hstack, List.reverse_cons, List.flatMap_append, List.filter_append, houter,
    List.nil_append, List.flatMap_singleton, hown]

/-! ### Steps that move no reference -/

section Still

variable {w w' : Walk} {r : Reference}

theorem place?_congr (hchain : w'.tree.chain r.origin = w.tree.chain r.origin)
    (hholds : ∀ i ∈ w.tree.chain r.origin, w'.holds r.name i = w.holds r.name i) :
    w'.place? r = w.place? r := by
  rw [place?, place?, hchain]
  exact List.find?_congr hholds

theorem passed_congr (hchain : w'.tree.chain r.origin = w.tree.chain r.origin)
    (hholds : ∀ i ∈ w.tree.chain r.origin, w'.holds r.name i = w.holds r.name i) (i : Nat) :
    w'.passed i r = w.passed i r := by
  unfold passed
  rw [hchain]
  congr 1
  rw [Bool.eq_iff_iff]
  simp only [List.all_eq_true]
  exact forall₂_congr fun j hj => by rw [hholds j hj]

end Still

theorem resolved_start (span : Span) : (start span).Resolved [] := by
  have hscope : ∀ i s, (start span).tree.scope? i = some s →
      s.bindings = [] ∧ s.through = [] := by
    intro i s hs
    cases i with
    | zero => rw [← Option.some.inj hs]; exact ⟨rfl, rfl⟩
    | succ i => cases hs
  constructor
  case made =>
    exact fun r hr => absurd hr List.not_mem_nil
  case queued =>
    intro o ho r hr
    rw [List.mem_singleton.mp ho] at hr
    exact absurd hr List.not_mem_nil
  case pending =>
    rfl
  case given =>
    intro i s hs name
    simp [Scope.referencesOf, Scope.binding?, (hscope i s hs).1]
  case through =>
    intro i s hs
    exact (hscope i s hs).2

theorem holds_define {w : Walk} (hw : w.Formed) (hopen : w.stack ≠ []) (source : Source)
    (label : Label) (kind : DefinitionKind) (name : String) (i : Nat) :
    (w.define source label kind).holds name i = w.holds name i := by
  by_cases hi : i ∈ w.opened
  · rw [holds_of_opened hi, holds_of_opened (by rw [opened_define]; exact hi)]
  · rw [holds_of_not_opened hi, holds_of_not_opened (by rw [opened_define]; exact hi)]
    have hne : ¬ w.owner kind = i := by
      intro he
      exact hi ((hw.mem_opened hopen i).mpr (he ▸ hw.owner_mem kind))
    rw [define_eq, ScopeTree.define, ScopeTree.declares, ScopeTree.binding?,
      ScopeTree.scope?_update]
    simp [hne, ScopeTree.declares, ScopeTree.binding?]

theorem Resolved.define {w : Walk} {uses : List Reference} (h : w.Resolved uses) (hw : w.Formed)
    (hopen : w.stack ≠ []) (source : Source) (name : Label) (kind : DefinitionKind) :
    (w.define source name kind).Resolved uses := by
  have hmild := ScopeTree.Mild.define ⟨.ofLabel source name, kind⟩
  have hchain : ∀ r ∈ uses,
      (w.define source name kind).tree.chain r.origin = w.tree.chain r.origin :=
    fun r hr => hw.tree.chain_update hmild _ (h.made r hr).1
  have hholds := fun (r : Reference) i (_ : i ∈ w.tree.chain r.origin) =>
    holds_define hw hopen source name kind r.name i
  have hplace : ∀ r ∈ uses, (w.define source name kind).place? r = w.place? r :=
    fun r hr => place?_congr (hchain r hr) (hholds r)
  -- A scope that a definition may have changed has the references it had.
  have hscope : ∀ (i : Nat) s, (w.define source name kind).tree.scope? i = some s →
      ∃ s₀, w.tree.scope? i = some s₀ ∧ (∀ n, s.referencesOf n = s₀.referencesOf n) ∧
        s.through = s₀.through := by
    intro i s hs
    rw [define_eq, ScopeTree.define, ScopeTree.scope?_update] at hs
    obtain ⟨s₀, hs₀, rfl⟩ := Option.map_eq_some_iff.mp hs
    refine ⟨s₀, hs₀, fun n => ?_, ?_⟩
    · split
      · exact Scope.referencesOf_define ..
      · rfl
    · split <;> rfl
  constructor
  case made =>
    intro r hr
    rw [define_eq, ScopeTree.define, ScopeTree.size_update]
    exact h.made r hr
  case queued =>
    intro o ho r hr
    rw [hplace r (h.mem_of_waiting ho hr)]
    exact h.queued o ho r hr
  case pending =>
    rw [List.filter_congr (q := w.waits) fun r hr => by rw [waits, hplace r hr]; rfl]
    exact h.pending
  case given =>
    intro i s hs n
    obtain ⟨s₀, hs₀, hrefs, _⟩ := hscope i s hs
    rw [hrefs, h.given i s₀ hs₀]
    congr 2
    exact List.filter_congr fun r hr => by rw [settledIn, settledIn, hplace r hr]; rfl
  case through =>
    intro i s hs
    obtain ⟨s₀, hs₀, _, hthrough⟩ := hscope i s hs
    rw [hthrough, h.through i s₀ hs₀]
    exact List.filter_congr fun r hr => (passed_congr (hchain r hr) (hholds r) i).symm

theorem contains_opened_enter (w : Walk) (kind : ScopeKind) (span : Span) {i : Nat}
    (hi : i ≠ w.tree.size) : (w.enter kind span).opened.contains i = w.opened.contains i := by
  rw [opened_enter, List.contains_cons, beq_false_of_ne hi, Bool.false_or]

/-- A scope just opened holds every name, and the others hold what they held. -/
theorem holds_enter {w : Walk} (hw : w.Formed) (kind : ScopeKind) (span : Span) (name : String)
    {i : Nat} (hi : i < w.tree.size) : (w.enter kind span).holds name i = w.holds name i := by
  have hdeclares : (w.enter kind span).tree.declares i name = w.tree.declares i name :=
    ScopeTree.declares_add hw.current_lt kind span i name
  rw [holds, holds, hdeclares, contains_opened_enter w kind span (Nat.ne_of_lt hi)]

section Enter

variable {w : Walk} {uses : List Reference} (h : w.Resolved uses) (hw : w.Formed)
  (kind : ScopeKind) (span : Span) {r : Reference} (hr : r ∈ uses)

include h hw hr

theorem Resolved.lt_of_mem_chain {i : Nat} (hi : i ∈ w.tree.chain r.origin) : i < w.tree.size :=
  Nat.lt_of_le_of_lt (hw.tree.le_of_mem_chain (h.made r hr).1 hi) (h.made r hr).1

theorem Resolved.chain_enter :
    (w.enter kind span).tree.chain r.origin = w.tree.chain r.origin :=
  hw.tree.chain_add hw.current_lt kind span (h.made r hr).1

theorem Resolved.place?_enter : (w.enter kind span).place? r = w.place? r :=
  place?_congr (h.chain_enter hw kind span hr) fun _ hi =>
    holds_enter hw kind span r.name (h.lt_of_mem_chain hw hr hi)

theorem Resolved.passed_enter (i : Nat) : (w.enter kind span).passed i r = w.passed i r :=
  passed_congr (h.chain_enter hw kind span hr) (fun _ hi =>
    holds_enter hw kind span r.name (h.lt_of_mem_chain hw hr hi)) i

omit hr in
/-- A scope just opened has been given nothing, and the others what they had been. -/
theorem Resolved.enter_given {i : Nat} {s : Scope}
    (hs : (w.enter kind span).tree.scope? i = some s) (n : String) :
    s.referencesOf n = ((uses.filter ((w.enter kind span).settledIn i)).filter (·.name = n)).map
      (·.resolvedIn i) := by
  rcases ScopeTree.scope?_add_cases hw.current_lt kind span i s hs with
    ⟨rfl, rfl⟩ | ⟨s₀, hi, hs₀, rfl⟩
  · have hnone : uses.filter ((w.enter kind span).settledIn w.tree.size) = [] := by
      refine List.filter_eq_nil_iff.mpr fun r hr => ?_
      simp [settledIn]
    rw [hnone]
    rfl
  · have hrefs : (if w.current = i then s₀.adopt w.tree.size else s₀).referencesOf n =
        s₀.referencesOf n := by
      split <;> rfl
    rw [hrefs, h.given i s₀ hs₀]
    congr 2
    refine List.filter_congr fun r hr => ?_
    rw [settledIn, settledIn, h.place?_enter hw kind span hr,
      contains_opened_enter w kind span (Nat.ne_of_lt hi)]

omit hr in
/-- Nothing has passed through a scope just opened, and through the others what had. -/
theorem Resolved.enter_through {i : Nat} {s : Scope}
    (hs : (w.enter kind span).tree.scope? i = some s) :
    s.through = uses.filter ((w.enter kind span).passed i) := by
  rcases ScopeTree.scope?_add_cases hw.current_lt kind span i s hs with
    ⟨rfl, rfl⟩ | ⟨s₀, hi, hs₀, rfl⟩
  · refine (List.filter_eq_nil_iff.mpr fun r hr he => ?_).symm
    rw [h.passed_enter hw kind span hr, passed, Bool.and_eq_true] at he
    exact Nat.lt_irrefl _ (h.lt_of_mem_chain hw hr (List.contains_iff_mem.mp he.1))
  · have hthrough : (if w.current = i then s₀.adopt w.tree.size else s₀).through =
        s₀.through := by
      split <;> rfl
    rw [hthrough, h.through i s₀ hs₀]
    exact List.filter_congr fun r hr => (h.passed_enter hw kind span hr i).symm

end Enter

theorem Resolved.enter {w : Walk} {uses : List Reference} (h : w.Resolved uses) (hw : w.Formed)
    (kind : ScopeKind) (span : Span) : (w.enter kind span).Resolved uses where
  made := by
    intro r hr
    show r.origin < (w.tree.add w.current kind span).size ∧ r.resolved = none
    rw [ScopeTree.size_add]
    exact ⟨Nat.lt_succ_of_lt (h.made r hr).1, (h.made r hr).2⟩
  queued := by
    intro o ho r hr
    rcases List.mem_cons.mp ho with rfl | ho
    · exact absurd hr List.not_mem_nil
    · rw [h.place?_enter hw kind span (h.mem_of_waiting ho hr)]
      exact h.queued o ho r hr
  pending := by
    have hwaits : uses.filter (w.enter kind span).waits = uses.filter w.waits := by
      refine List.filter_congr fun r hr => ?_
      rw [waits, waits, h.place?_enter hw kind span hr]
      cases hp : w.place? r with
      | none => rfl
      | some i =>
        have hi := h.lt_of_mem_chain hw hr (List.mem_of_find?_eq_some hp)
        exact contains_opened_enter w kind span (Nat.ne_of_lt hi)
    rw [hwaits, h.pending]
    show _ = (⟨w.tree.size, []⟩ :: w.stack).reverse.flatMap OpenScope.waiting
    rw [List.reverse_cons, List.flatMap_append, List.flatMap_singleton, List.append_nil]
  given := fun _ _ hs => h.enter_given hw kind span hs
  through := fun _ _ hs => h.enter_through hw kind span hs

/-- A reference waits at the scope that it is made in. -/
theorem place?_use {w : Walk} (hw : w.Formed) {top : OpenScope} {rest : List OpenScope}
    (hstack : w.stack = top :: rest) {r : Reference} (hr : r.origin = w.current) :
    w.place? r = some top.id := by
  have htop : top.id ∈ w.opened := by rw [opened, hstack]; exact List.mem_cons_self ..
  have hcurrent := current_cons hstack
  rw [place?, hr, hw.tree.chain_eq hw.current_lt, hcurrent, List.find?_cons,
    holds_of_opened htop]

section Refer

variable (source : Source) (w : Walk) (name : Label) (access : Access) (init : Bool)

theorem stack_refer {top : OpenScope} {rest : List OpenScope} (hstack : w.stack = top :: rest) :
    (w.refer source name access init).stack =
      { top with waiting := top.waiting ++ [w.use source name access init] } :: rest := by
  rw [refer_eq, hstack]
  rfl

theorem holds_refer (n : String) (i : Nat) :
    (w.refer source name access init).holds n i = w.holds n i := by
  rw [holds, holds, opened_refer, tree_refer]

theorem place?_refer (r : Reference) :
    (w.refer source name access init).place? r = w.place? r :=
  place?_congr (by rw [tree_refer]) fun i _ => holds_refer source w name access init r.name i

theorem passed_refer (i : Nat) (r : Reference) :
    (w.refer source name access init).passed i r = w.passed i r :=
  passed_congr (by rw [tree_refer])
    (fun j _ => holds_refer source w name access init r.name j) i

theorem settledIn_refer (i : Nat) (r : Reference) :
    (w.refer source name access init).settledIn i r = w.settledIn i r := by
  rw [settledIn, settledIn, place?_refer, opened_refer]

theorem waits_refer (r : Reference) :
    (w.refer source name access init).waits r = w.waits r := by
  rw [waits, waits, place?_refer, opened_refer]

end Refer

/-- A reference just made has gone no further than the scope it is made in. -/
theorem not_settledIn_use {w : Walk} (hw : w.Formed) (hopen : w.stack ≠ []) {r : Reference}
    (hr : r.origin = w.current) (i : Nat) : w.settledIn i r = false := by
  obtain ⟨top, rest, hstack⟩ := List.exists_cons_of_ne_nil hopen
  have htop : top.id ∈ w.opened := by rw [opened, hstack]; exact List.mem_cons_self ..
  have hcome : w.place? r = some top.id := place?_use hw hstack hr
  by_cases hi : i = top.id
  · simp [settledIn, hi, htop]
  · simp [settledIn, hcome, Ne.symm hi]

theorem not_passed_use {w : Walk} (hw : w.Formed) (hopen : w.stack ≠ []) {r : Reference}
    (hr : r.origin = w.current) (i : Nat) : w.passed i r = false := by
  by_cases hi : i ∈ w.opened
  · exact passed_of_opened hi r
  · rw [passed, hr, ← hw.opened hopen]
    simp [hi]

theorem Resolved.refer {w : Walk} {uses : List Reference} (h : w.Resolved uses) (hw : w.Formed)
    (hopen : w.stack ≠ []) (source : Source) (name : Label) (access : Access) (init : Bool) :
    (w.refer source name access init).Resolved (uses ++ [w.use source name access init]) := by
  obtain ⟨top, rest, hstack⟩ := List.exists_cons_of_ne_nil hopen
  have horigin : (w.use source name access init).origin = w.current := rfl
  have hcome := place?_use hw hstack horigin
  constructor
  case made =>
    intro r hr
    rw [tree_refer]
    rcases List.mem_append.mp hr with hr | hr
    · exact h.made r hr
    · rw [List.mem_singleton.mp hr]
      exact ⟨hw.current_lt, rfl⟩
  case queued =>
    intro o ho r hr
    rw [place?_refer]
    rw [stack_refer source w name access init hstack] at ho
    rcases List.mem_cons.mp ho with rfl | ho
    · rcases List.mem_append.mp hr with hr | hr
      · exact h.queued top (hstack ▸ List.mem_cons_self ..) r hr
      · rw [List.mem_singleton.mp hr]
        exact hcome
    · exact h.queued o (hstack ▸ List.mem_cons_of_mem _ ho) r hr
  case pending =>
    have htop : top.id ∈ w.opened := by rw [opened, hstack]; exact List.mem_cons_self ..
    have hpending := h.pending
    rw [hstack, List.reverse_cons, List.flatMap_append, List.flatMap_singleton] at hpending
    rw [funext (waits_refer source w name access init), List.filter_append, hpending,
      stack_refer source w name access init hstack, List.reverse_cons, List.flatMap_append,
      List.flatMap_singleton, List.append_assoc]
    simp [waits, hcome, htop]
  case given =>
    intro i s hs n
    rw [tree_refer] at hs
    rw [funext (settledIn_refer source w name access init i), List.filter_append,
      List.filter_cons, not_settledIn_use hw hopen horigin]
    simpa using h.given i s hs n
  case through =>
    intro i s hs
    rw [tree_refer] at hs
    rw [funext (passed_refer source w name access init i), List.filter_append,
      List.filter_cons, not_passed_use hw hopen horigin]
    simpa using h.through i s hs

end Walk

end ScopeLint
