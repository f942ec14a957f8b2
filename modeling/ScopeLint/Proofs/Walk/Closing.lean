import ScopeLint.Proofs.ScopeTree.Chain
import ScopeLint.Scope.Walk

/-! # Closing a scope

When a scope closes, the references waiting at it are taken one by one.  All
that this does is said at once by `Walk.leave_eq`: the closed scope takes every
waiting reference, into a binding or into those passed through
(`Scope.settleAll`), and the ones whose name it does not declare go, in the same
order, to the end of the next queue (`Walk.handUp`).
-/

namespace ScopeLint

/-- A reference as it is kept by the binding it belongs to. -/
def Reference.resolvedIn (r : Reference) (id : ScopeId) : Reference :=
  { r with resolved := some id }

namespace Scope

/-- A closing scope takes one reference. -/
def settle (s : Scope) (r : Reference) : Scope :=
  if s.declares r.name then s.resolve r else s.pass r

/-- A closing scope takes references in order. -/
def settleAll (s : Scope) (rs : List Reference) : Scope := rs.foldl settle s

/-! ### What a closing scope takes -/

@[simp] theorem declares_settle (s : Scope) (r : Reference) (name : String) :
    (s.settle r).declares name = s.declares name := by
  unfold settle
  split <;> simp

@[simp] theorem settle_id (s : Scope) (r : Reference) : (s.settle r).id = s.id := by
  unfold settle
  split <;> rfl

@[simp] theorem settleAll_nil (s : Scope) : s.settleAll [] = s := rfl

@[simp] theorem settleAll_cons (s : Scope) (r : Reference) (rs : List Reference) :
    s.settleAll (r :: rs) = (s.settle r).settleAll rs := rfl

/-- A field of scopes that neither resolving nor passing changes is kept. -/
theorem settleAll_keeps {α : Type} (field : Scope → α)
    (hresolve : ∀ s r, field (s.resolve r) = field s)
    (hpass : ∀ s r, field (s.pass r) = field s) (rs : List Reference) :
    ∀ s : Scope, field (s.settleAll rs) = field s := by
  induction rs with
  | nil => intro s; rfl
  | cons r rs ih =>
    intro s
    rw [settleAll_cons, ih]
    unfold settle
    split
    · exact hresolve s r
    · exact hpass s r

@[simp] theorem declares_settleAll (s : Scope) (rs : List Reference) (name : String) :
    (s.settleAll rs).declares name = s.declares name :=
  settleAll_keeps (·.declares name) (fun s r => declares_resolve s r name)
    (fun _ _ => rfl) rs s

@[simp] theorem definitionsOf_settleAll (s : Scope) (rs : List Reference) (name : String) :
    (s.settleAll rs).definitionsOf name = s.definitionsOf name :=
  settleAll_keeps (·.definitionsOf name) (fun s r => definitionsOf_resolve s r name)
    (fun _ _ => rfl) rs s

/-- A declared name gets its references in order, and an undeclared one gets
none. -/
theorem referencesOf_settleAll (rs : List Reference) (name : String) : ∀ s : Scope,
    (s.settleAll rs).referencesOf name =
      s.referencesOf name ++
        if s.declares name then (rs.filter (·.name = name)).map (·.resolvedIn s.id) else [] := by
  induction rs with
  | nil => intro s; simp
  | cons r rs ih =>
    intro s
    rw [settleAll_cons, ih, declares_settle, settle_id]
    have hstep : (s.settle r).referencesOf name = s.referencesOf name ++
        if s.declares name ∧ r.name = name then [r.resolvedIn s.id] else [] := by
      unfold settle
      by_cases hd : s.declares r.name
      · rw [if_pos hd, referencesOf_resolve]
        simp only [Reference.resolvedIn, eq_comm, and_comm]
      · rw [if_neg hd]
        have hn : ¬ (s.declares name = true ∧ r.name = name) := fun h => hd (h.2 ▸ h.1)
        rw [if_neg hn]
        exact (List.append_nil _).symm
    rw [hstep, List.append_assoc]
    by_cases hd : s.declares name <;> by_cases hn : r.name = name <;> simp [hd, hn]

/-- The references of undeclared names pass through in order. -/
theorem through_settleAll (rs : List Reference) : ∀ s : Scope,
    (s.settleAll rs).through = s.through ++ rs.filter (fun r => !s.declares r.name) := by
  induction rs with
  | nil => intro s; simp
  | cons r rs ih =>
    intro s
    rw [settleAll_cons, ih]
    simp only [declares_settle]
    unfold settle
    by_cases hd : s.declares r.name
    · simp [hd, resolve]
    · simp [hd, pass]

theorem mild_settleAll (rs : List Reference) : ScopeTree.Mild (·.settleAll rs) where
  id := settleAll_keeps (·.id) (fun _ _ => rfl) (fun _ _ => rfl) rs
  parent := settleAll_keeps (·.parent) (fun _ _ => rfl) (fun _ _ => rfl) rs
  children := settleAll_keeps (·.children) (fun _ _ => rfl) (fun _ _ => rfl) rs
  names := fun s h => by
    rw [settleAll_keeps names names_resolve names_pass rs s]
    exact h

end Scope

namespace ScopeTree

/-- An update only sees the scope it changes. -/
theorem update_congr {t : ScopeTree} {id : Nat} {s : Scope} (hs : t.scope? id = some s)
    {f g : Scope → Scope} (h : f s = g s) : t.update id f = t.update id g := by
  unfold update
  congr 1
  apply List.ext_getElem?
  intro i
  rw [List.getElem?_modify, List.getElem?_modify]
  by_cases hi : id = i
  · subst hi
    have hs' : t.scopes[id]? = some s := hs
    simp [hs', h]
  · simp [hi]

end ScopeTree

namespace Walk

/-- References handed up to the innermost scope of a stack. -/
def handUp (rs : List Reference) : List OpenScope → List OpenScope
  | [] => []
  | top :: rest => { top with waiting := top.waiting ++ rs } :: rest

@[simp] theorem handUp_nil (stack : List OpenScope) : handUp [] stack = stack := by
  cases stack <;> simp [handUp]

theorem handUp_handUp (rs rs' : List Reference) (stack : List OpenScope) :
    handUp rs' (handUp rs stack) = handUp (rs ++ rs') stack := by
  cases stack <;> simp [handUp]

@[simp] theorem handUp_ids (rs : List Reference) (stack : List OpenScope) :
    (handUp rs stack).map (·.id) = stack.map (·.id) := by
  cases stack <;> rfl

theorem wait_eq (w : Walk) (r : Reference) : w.wait r = ⟨w.tree, handUp [r] w.stack⟩ := by
  obtain ⟨tree, stack⟩ := w
  cases stack <;> rfl

theorem settle_eq {id : Nat} {w : Walk} {s : Scope} (hs : w.tree.scope? id = some s)
    (r : Reference) :
    settle id w r =
      ⟨w.tree.update id (·.settle r), handUp (if s.declares r.name then [] else [r]) w.stack⟩ := by
  have hdecl : (w.tree.binding? id r.name).isSome = s.declares r.name :=
    ScopeTree.declares_of_scope hs r.name
  unfold settle ScopeTree.resolve?
  cases hb : w.tree.binding? id r.name with
  | none =>
    rw [hb] at hdecl
    have hd : s.declares r.name = false := hdecl.symm
    have hpass : w.tree.pass id r = w.tree.update id (·.settle r) :=
      ScopeTree.update_congr hs (by simp [Scope.settle, hd])
    simp only [Option.map_none, wait_eq, hpass, hd, Bool.false_eq_true, if_false]
  | some b =>
    rw [hb] at hdecl
    have hd : s.declares r.name = true := hdecl.symm
    have hresolve : w.tree.update id (·.resolve r) = w.tree.update id (·.settle r) :=
      ScopeTree.update_congr hs (by simp [Scope.settle, hd])
    simp only [Option.map_some, hresolve, hd, if_true, handUp_nil]

theorem foldl_settle {id : Nat} (rs : List Reference) : ∀ {w : Walk} {s : Scope},
    w.tree.scope? id = some s →
      rs.foldl (settle id) w =
        ⟨w.tree.update id (·.settleAll rs),
          handUp (rs.filter fun r => !s.declares r.name) w.stack⟩ := by
  induction rs with
  | nil =>
    intro w s hs
    have hkeep : w.tree.update id (·.settleAll []) = w.tree :=
      congrArg ScopeTree.mk (List.modify_id id w.tree.scopes)
    rw [List.foldl_nil, hkeep, List.filter_nil, handUp_nil]
  | cons r rs ih =>
    intro w s hs
    have hs' : (w.tree.update id (·.settle r)).scope? id = some (s.settle r) := by
      rw [ScopeTree.scope?_update, hs]; simp
    rw [List.foldl_cons, settle_eq hs, ih hs', ScopeTree.update_update, handUp_handUp]
    congr 1
    by_cases hd : s.declares r.name <;> simp [hd]

/-- **What closing a scope does.** -/
theorem leave_eq {w : Walk} {top : OpenScope} {rest : List OpenScope} {s : Scope}
    (hw : w.stack = top :: rest) (hs : w.tree.scope? top.id = some s) :
    w.leave =
      ⟨w.tree.update top.id (·.settleAll top.waiting),
        handUp (top.waiting.filter fun r => !s.declares r.name) rest⟩ := by
  unfold leave
  rw [hw]
  exact foldl_settle top.waiting (w := { w with stack := rest }) hs

/-! ### The open scopes -/

/-- The ids of the open scopes, innermost first. -/
def opened (w : Walk) : List ScopeId := w.stack.map (·.id)

@[simp] theorem opened_enter (w : Walk) (kind : ScopeKind) (span : Span) :
    (w.enter kind span).opened = w.tree.size :: w.opened := rfl

@[simp] theorem opened_define (source : Source) (w : Walk) (name : Syntax.Label)
    (kind : DefinitionKind) : (w.define source name kind).opened = w.opened := rfl

@[simp] theorem opened_wait (w : Walk) (r : Reference) : (w.wait r).opened = w.opened := by
  rw [wait_eq]
  exact handUp_ids [r] w.stack

@[simp] theorem opened_refer (source : Source) (w : Walk) (name : Syntax.Label) (access : Access)
    (init : Bool) : (w.refer source name access init).opened = w.opened :=
  opened_wait w _

theorem opened_settle (id : Nat) (w : Walk) (r : Reference) :
    (settle id w r).opened = w.opened := by
  unfold settle
  cases w.tree.resolve? id r with
  | none => exact opened_wait _ r
  | some tree => rfl

/-- What stays when one reference is settled stays when all are. -/
theorem foldl_settle_keeps {α : Type} (field : Walk → α) {id : Nat}
    (h : ∀ w r, field (settle id w r) = field w) (rs : List Reference) (w : Walk) :
    field (rs.foldl (settle id) w) = field w := by
  induction rs generalizing w with
  | nil => rfl
  | cons r rs ih => rw [List.foldl_cons, ih, h]

@[simp] theorem opened_leave (w : Walk) : w.leave.opened = w.opened.tail := by
  unfold leave opened
  cases hw : w.stack with
  | nil => simp [hw]
  | cons top rest => exact foldl_settle_keeps opened (opened_settle top.id) top.waiting _

end Walk

end ScopeLint
