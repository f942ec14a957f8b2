import ScopeLint.Proofs.ScopeTree.InModule
import ScopeLint.Proofs.Walk.Formed

/-! # The walk of a module follows the walk of the script

A program read as a module is walked like the script, with one more scope open at
the outer end of the stack (`Walk.inModule`).  Every step of the script's walk is a
step of the module's walk: a hoisted name that would go to the global scope goes to
the scope of the module, and a closing scope hands up the same references.  Only at
the end the module has one scope more to close, and the global scope around it
declares nothing.  So the tree of the module is that of the script with the scope
of the module inserted (`analyze_module`).
-/

namespace ScopeLint

open Syntax (Label Node Program)

namespace Scope

/-! ### Closing scopes -/

theorem shifts_settleAll (rs : List Reference) :
    Shifts (·.settleAll rs) (·.settleAll (rs.map .shift)) where
  moved := by
    intro kind parent s
    induction rs generalizing s with
    | nil => rfl
    | cons r rs ih =>
      have hstep : (s.settle r).moved kind parent = (s.moved kind parent).settle r.shift := by
        unfold settle
        rw [show r.shift.name = r.name from rfl, declares_moved]
        split
        · exact (shifts_resolve r).moved kind parent s
        · exact (shifts_pass r).moved kind parent s
      rw [List.map_cons, settleAll_cons, settleAll_cons, ih (s.settle r), hstep]
  kind := settleAll_keeps (·.kind) (fun _ _ => rfl) (fun _ _ => rfl) rs
  parent := settleAll_keeps (·.parent) (fun _ _ => rfl) (fun _ _ => rfl) rs

/-- Through a scope that declares nothing all references pass. -/
theorem settleAll_of_bindings_nil (rs : List Reference) {s : Scope} (h : s.bindings = []) :
    s.settleAll rs = { s with through := s.through ++ rs } := by
  induction rs generalizing s with
  | nil => rw [settleAll_nil, List.append_nil]
  | cons r rs ih =>
    have hstep : s.settle r = s.pass r := by
      have hdeclares : s.declares r.name = false := by
        rw [declares, binding?, h]
        rfl
      rw [settle, hdeclares]
      rfl
    have hrest := ih (s := s.pass r) h
    rw [settleAll_cons, hstep, hrest, pass, List.append_assoc]
    rfl

/-- Through the scope around a module pass the references that leave the module. -/
theorem aroundModule_settleAll (rs : List Reference) (s : Scope) :
    (s.settleAll rs).aroundModule =
      s.aroundModule.settleAll ((rs.filter fun r => !s.declares r.name).map .shift) := by
  have hid := settleAll_keeps (·.id) (fun _ _ => rfl) (fun _ _ => rfl) rs s
  have hkind := settleAll_keeps (·.kind) (fun _ _ => rfl) (fun _ _ => rfl) rs s
  have hparent := settleAll_keeps (·.parent) (fun _ _ => rfl) (fun _ _ => rfl) rs s
  have hspan := settleAll_keeps (·.span) (fun _ _ => rfl) (fun _ _ => rfl) rs s
  have hpass := settleAll_of_bindings_nil
    ((rs.filter fun r => !s.declares r.name).map .shift) (s := s.aroundModule) rfl
  rw [hpass]
  unfold aroundModule
  rw [through_settleAll, List.map_append, hid, hkind, hparent, hspan]

end Scope

/-- An open scope among scopes whose ids are one greater. -/
def OpenScope.shift (o : OpenScope) : OpenScope := ⟨o.id + 1, o.waiting.map .shift⟩

namespace Walk

/-- **The walk of the module** when the walk of the script is at a state. -/
def inModule (w : Walk) : Walk :=
  ⟨w.tree.inModule, w.stack.map .shift ++ [⟨ScopeTree.rootId, []⟩]⟩

/-! ### Steps -/

theorem inModule_start (span : Span) : (start span).enter .module span = (start span).inModule :=
  rfl

theorem current_inModule {w : Walk} (hopen : w.stack ≠ []) :
    w.inModule.current = w.current + 1 := by
  obtain ⟨top, rest, hstack⟩ := List.exists_cons_of_ne_nil hopen
  rw [current_cons hstack, current, inModule, hstack]
  rfl

theorem owner_inModule {w : Walk} (h : w.Formed) (hopen : w.stack ≠ [])
    (kind : DefinitionKind) : w.inModule.owner kind = w.owner kind + 1 := by
  unfold owner
  rw [current_inModule hopen]
  split
  · obtain ⟨v, hv, _⟩ := h.tree.variableScope?_mem h.current_lt
    have hv' := ScopeTree.variableScope?_inModule h.tree h.current_lt
    rw [hv, Option.map_some] at hv'
    rw [hv, show w.inModule.tree = w.tree.inModule from rfl, hv']
    rfl
  · rfl

theorem define_inModule {w : Walk} (h : w.Formed) (hopen : w.stack ≠ []) (source : Source)
    (name : Label) (kind : DefinitionKind) :
    w.inModule.define source name kind = (w.define source name kind).inModule := by
  have htree := ScopeTree.inModule_update w.tree
    (Scope.shifts_define ⟨.ofLabel source name, kind⟩) (w.owner kind) fun _ _ => rfl
  rw [define_eq, define_eq, owner_inModule h hopen]
  unfold inModule
  rw [ScopeTree.define, ScopeTree.define, htree]

theorem handUp_inModule (rs : List Reference) {stack : List OpenScope} (hopen : stack ≠ [])
    (outer : List OpenScope) :
    handUp (rs.map .shift) (stack.map .shift ++ outer) =
      (handUp rs stack).map .shift ++ outer := by
  obtain ⟨top, rest, rfl⟩ := List.exists_cons_of_ne_nil hopen
  simp [handUp, OpenScope.shift]

theorem refer_inModule {w : Walk} (hopen : w.stack ≠ []) (source : Source) (name : Label)
    (access : Access) (init : Bool) :
    w.inModule.refer source name access init = (w.refer source name access init).inModule := by
  have huse : w.inModule.use source name access init =
      (w.use source name access init).shift := by
    rw [use, use, current_inModule hopen]
    rfl
  have hstack := handUp_inModule [w.use source name access init] hopen [⟨ScopeTree.rootId, []⟩]
  rw [List.map_singleton] at hstack
  rw [refer_eq, refer_eq, huse]
  unfold inModule
  rw [hstack]

theorem enter_inModule {w : Walk} (h : w.Formed) (hopen : w.stack ≠ []) (kind : ScopeKind)
    (span : Span) : w.inModule.enter kind span = (w.enter kind span).inModule := by
  have hsize : w.inModule.tree.size = w.tree.size + 1 := ScopeTree.size_inModule h.tree.pos
  have htree := ScopeTree.inModule_add h.tree.pos w.current kind span
  rw [enter, current_inModule hopen, hsize]
  show _ = Walk.mk (w.tree.add w.current kind span).inModule _
  rw [htree]
  rfl

/-- What the walk of the module does when the innermost scope closes. -/
theorem leave_inModule_eq {w : Walk} {top : OpenScope} {rest : List OpenScope} {s : Scope}
    (hw : w.stack = top :: rest) (hs : w.tree.scope? top.id = some s) :
    w.inModule.leave =
      ⟨w.tree.inModule.update (top.id + 1) (·.settleAll (top.waiting.map .shift)),
        handUp ((top.waiting.filter fun r => !s.declares r.name).map .shift)
          (rest.map .shift ++ [⟨ScopeTree.rootId, []⟩])⟩ := by
  have hstack : w.inModule.stack =
      top.shift :: (rest.map .shift ++ [⟨ScopeTree.rootId, []⟩]) := by
    rw [inModule, hw]
    rfl
  have hlt : top.id + 1 < w.tree.inModule.size := by
    rw [ScopeTree.size_inModule (Nat.zero_lt_of_lt (ScopeTree.lt_size hs))]
    exact Nat.succ_lt_succ (ScopeTree.lt_size hs)
  obtain ⟨s', hs'⟩ := ScopeTree.scope?_isSome hlt
  have hdeclares : ∀ name, s'.declares name = s.declares name := by
    intro name
    rw [← ScopeTree.declares_of_scope hs', ScopeTree.declares_inModule,
      ScopeTree.declares_of_scope hs]
  rw [leave_eq hstack hs']
  show Walk.mk _ (handUp ((top.waiting.map Reference.shift).filter _) _) = _
  rw [List.filter_map]
  simp only [hdeclares]
  rfl

/-- While a scope stays open around it, a closing scope does the same in both. -/
theorem leave_inModule {w : Walk} (h : w.Formed) {top next : OpenScope}
    {outer : List OpenScope} (hw : w.stack = top :: next :: outer) :
    w.inModule.leave = w.leave.inModule := by
  have hlt : top.id < w.tree.size := current_cons hw ▸ h.current_lt
  obtain ⟨s, hs⟩ := ScopeTree.scope?_isSome hlt
  -- The global scope is the outermost, so it is not the one that closes.
  have hpos : top.id ≠ 0 := by
    have hdecreasing := h.opened_decreasing
    rw [Walk.opened, hw, List.map_cons, List.map_cons, List.pairwise_cons] at hdecreasing
    exact Nat.ne_zero_of_lt (hdecreasing.1 next.id (List.mem_cons_self ..))
  have htree := ScopeTree.inModule_update w.tree (Scope.shifts_settleAll top.waiting) top.id
    fun hzero => absurd hzero hpos
  rw [leave_inModule_eq hw hs, leave_eq hw hs, handUp_inModule _ (List.cons_ne_nil _ _)]
  unfold inModule
  rw [htree]

/-- When only the global scope is left, the module closes its own scope and then the
global one. -/
theorem leave_leave_inModule {w : Walk} (h : w.Formed) {waiting : List Reference}
    (hw : w.stack = [⟨ScopeTree.rootId, waiting⟩]) :
    w.inModule.leave.leave.tree = w.leave.tree.inModule := by
  obtain ⟨s, hs⟩ := ScopeTree.scope?_isSome h.tree.pos
  have hs : w.tree.scope? ScopeTree.rootId = some s := hs
  -- The scope of the module closes first, and hands on what the global scope has to pass.
  have hleave := leave_inModule_eq hw hs
  have haround : w.inModule.leave.tree.scope? ScopeTree.rootId = some s.aroundModule := by
    rw [hleave, ScopeTree.scope?_update, ScopeTree.scope?_inModule_root, hs]
    rfl
  have hstack : w.inModule.leave.stack =
      [⟨ScopeTree.rootId, (waiting.filter fun r => !s.declares r.name).map .shift⟩] := by
    rw [hleave]
    rfl
  have htree : (w.tree.update ScopeTree.rootId (·.settleAll waiting)).inModule =
      (w.tree.inModule.update (ScopeTree.rootId + 1) (·.settleAll (waiting.map .shift))).update
        ScopeTree.rootId
        (·.settleAll ((waiting.filter fun r => !s.declares r.name).map .shift)) :=
    ScopeTree.inModule_update_root (Scope.shifts_settleAll waiting) hs
      (Scope.aroundModule_settleAll waiting s)
  rw [leave_eq hstack haround, hleave, h.leave_tree hw, htree]

/-! ### Runs -/

mutual

theorem Formed.entry {source : Source} : ∀ (e : Entry) {w : Walk}, w.Formed → w.stack ≠ [] →
    (w.entry source e).Formed
  | .definition name kind, _, h, _ => h.define source name kind
  | .reference name access init, _, h, _ => h.refer source name access init
  | .scope kind span es, w, h, hopen => by
      rw [Walk.entry]
      exact (Formed.entries es (h.enter hopen kind span) (List.cons_ne_nil _ _)).leave

theorem Formed.entries {source : Source} : ∀ (es : List Entry) {w : Walk}, w.Formed →
    w.stack ≠ [] → (w.entries source es).Formed
  | [], _, h, _ => h
  | e :: es, w, h, hopen => by
      rw [Walk.entries]
      exact Formed.entries es (Formed.entry e h hopen)
        (stack_ne_nil_of_opened (opened_entry source w e) hopen)

end

mutual

theorem entry_inModule {source : Source} : ∀ (e : Entry) {w : Walk}, w.Formed →
    w.stack ≠ [] → w.inModule.entry source e = (w.entry source e).inModule
  | .definition name kind, _, h, hopen => define_inModule h hopen source name kind
  | .reference name access init, _, _, hopen => refer_inModule hopen source name access init
  | .scope kind span es, w, h, hopen => by
      have hentered := h.enter hopen kind span
      have hinner : (Walk.entries source (w.enter kind span) es).Formed :=
        Formed.entries es hentered (List.cons_ne_nil _ _)
      -- Behind the scope that closes lie the scopes open before.
      have hopened := opened_entries source (w.enter kind span) es
      rw [opened_enter] at hopened
      obtain ⟨top, rest, hstack⟩ := List.exists_cons_of_ne_nil
        (stack_ne_nil_of_opened (opened_entries source (w.enter kind span) es)
          (List.cons_ne_nil _ _))
      rw [Walk.opened, hstack, List.map_cons] at hopened
      have hrest : rest ≠ [] := by
        intro hnil
        rw [hnil] at hopened
        exact hopen (List.map_eq_nil_iff.mp (List.cons.inj hopened).2.symm)
      obtain ⟨next, outer, rfl⟩ := List.exists_cons_of_ne_nil hrest
      rw [Walk.entry, Walk.entry, enter_inModule h hopen,
        entries_inModule es hentered (List.cons_ne_nil _ _), leave_inModule hinner hstack]

/-- **The walk of the module follows that of the script.** -/
theorem entries_inModule {source : Source} : ∀ (es : List Entry) {w : Walk}, w.Formed →
    w.stack ≠ [] → w.inModule.entries source es = (w.entries source es).inModule
  | [], _, _, _ => rfl
  | e :: es, w, h, hopen => by
      rw [Walk.entries, Walk.entries, entry_inModule e h hopen]
      exact entries_inModule es (Formed.entry e h hopen)
        (stack_ne_nil_of_opened (opened_entry source w e) hopen)

end

end Walk

/-- **The tree of a module is that of the script with the scope of the module
inserted.** -/
theorem analyze_module (source : Source) (root : Node) :
    analyze ⟨source, root, .module⟩ = (analyze ⟨source, root, .script⟩).inModule := by
  have hstart := Walk.formed_start root.label.span
  generalize hw : (Walk.start root.label.span).entries source (root.outline .contents) = w
  -- Where the outline ends only the global scope is open.
  have hopened : w.opened = [ScopeTree.rootId] := by
    rw [← hw, Walk.opened_entries]
    rfl
  have hformed : w.Formed := hw ▸ Walk.Formed.entries _ hstart (List.cons_ne_nil _ _)
  obtain ⟨waiting, hstack⟩ : ∃ waiting, w.stack = [⟨ScopeTree.rootId, waiting⟩] := by
    obtain ⟨⟨id, waiting⟩, htop, hid⟩ := List.map_eq_singleton_iff.mp hopened
    exact ⟨waiting, by rw [htop, ← hid]⟩
  have hscript : analyze ⟨source, root, .script⟩ = w.leave.tree := by
    show Walk.finish (Walk.entries source _ (root.outline .contents)) = _
    rw [hw, Walk.finish, hstack]
    rfl
  have hmodule : analyze ⟨source, root, .module⟩ = w.inModule.leave.leave.tree := by
    show Walk.finish ((((Walk.start root.label.span).enter .module root.label.span).entries
      source (root.outline .contents)).leave) = _
    rw [Walk.inModule_start, Walk.entries_inModule _ hstart (List.cons_ne_nil _ _), hw]
    have hlength : w.inModule.leave.stack.length = 1 := by
      have hids : w.inModule.leave.opened = [ScopeTree.rootId] := by
        rw [Walk.opened_leave, Walk.opened, Walk.inModule, hstack]
        rfl
      rw [← List.length_map (f := OpenScope.id)]
      exact congrArg List.length hids
    rw [Walk.finish, hlength]
    rfl
  rw [hmodule, hscript, Walk.leave_leave_inModule hformed hstack]

end ScopeLint
