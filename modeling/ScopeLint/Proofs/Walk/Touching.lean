import ScopeLint.Proofs.ScopeTree.WayOut
import ScopeLint.Proofs.Walk.Formed

/-! # What walking a node touches

A node is walked with some scopes open, from the current one out to the global one.  Walking it
opens further scopes and closes each of them again, so the same scopes are open afterwards.  What
it changes (`Walk.Touches`) are the open scopes alone.  The current one may get definitions,
children and waiting references.  One around it may only get definitions by `var`, for these are
the ones that leave the scope they are written in; what leaves a closing scope goes to the queue
of the next one, and that is the current scope or one opened since.

`Walk.touches_entries` shows this by induction on entries, from what a definition, a reference and
a scope that is opened and closed again do.  It asks of the state only that the open scopes are a
way out, which every state of an analysis has (`Walk.Formed.leadsOut`).
-/

namespace ScopeLint

open Syntax (Label Node)

namespace Scope

/-- Declares names in order.  Nothing else changes. -/
def defineAll (s : Scope) (ds : List Definition) : Scope :=
  { s with bindings := ds.foldl (fun bs d => addDefinition d bs) s.bindings }

theorem defineAll_append (s : Scope) (ds es : List Definition) :
    s.defineAll (ds ++ es) = (s.defineAll ds).defineAll es := by
  simp [defineAll]

/-- The definitions of a name come behind those that it had. -/
theorem definitionsOf_defineAll (s : Scope) (ds : List Definition) (name : String) :
    (s.defineAll ds).definitionsOf name =
      s.definitionsOf name ++ ds.filter (·.name.name = name) := by
  induction ds generalizing s with
  | nil => rw [List.filter_nil, List.append_nil]; rfl
  | cons d ds ih =>
    rw [show s.defineAll (d :: ds) = (s.define d).defineAll ds from rfl, ih, definitionsOf_define,
      List.append_assoc]
    by_cases hname : d.name.name = name
    · simp [hname]
    · simp [hname, Ne.symm hname]

/-- The references of a name stay. -/
theorem referencesOf_defineAll (s : Scope) (ds : List Definition) (name : String) :
    (s.defineAll ds).referencesOf name = s.referencesOf name := by
  induction ds generalizing s with
  | nil => rfl
  | cons d ds ih =>
    rw [show s.defineAll (d :: ds) = (s.define d).defineAll ds from rfl, ih, referencesOf_define]

end Scope

namespace Walk

variable {source : Source} {w w' w'' : Walk}

/-- Of the open scopes the current one comes first. -/
theorem opened_eq_cons (hopen : w.opened ≠ []) : w.opened = w.current :: w.opened.tail := by
  obtain ⟨id, outer, hcons⟩ := List.exists_cons_of_ne_nil hopen
  rw [current_eq, hcons]
  rfl

/-- **What may differ** between two states of a walk with the same scopes open. -/
structure Touches (w w' : Walk) : Prop where
  /-- References come to the innermost open scope alone, behind those that wait there. -/
  queues : ∃ more, w'.stack = handUp more w.stack
  /-- A scope that was not open is as it was. -/
  closed : ∀ i : Nat, i < w.tree.size → i ∉ w.opened → w'.tree.scope? i = w.tree.scope? i
  /-- An open scope around the current one has only got definitions by `var`. -/
  outer : ∀ i ∈ w.opened.tail, ∃ added : List Definition,
    (∀ d ∈ added, d.kind = .declared .byVar) ∧
      w'.tree.scope? i = (w.tree.scope? i).map (·.defineAll added)
  /-- The current scope has only got definitions and children. -/
  current : ∃ (added : List Definition) (inner : List ScopeId),
    w'.tree.scope? w.current = (w.tree.scope? w.current).map fun s =>
      { s.defineAll added with children := s.children ++ inner }

namespace Touches

theorem opened (h : Touches w w') : w'.opened = w.opened := by
  obtain ⟨more, hstack⟩ := h.queues
  rw [Walk.opened, hstack, handUp_ids]
  rfl

theorem refl (w : Walk) : Touches w w where
  queues := ⟨[], (handUp_nil _).symm⟩
  closed := fun _ _ _ => rfl
  outer := fun _ _ => ⟨[], nofun, Option.map_id_apply.symm⟩
  current := ⟨[], [], by simp [Scope.defineAll]⟩

theorem trans (h : Touches w w') (h' : Touches w' w'') : Touches w w'' where
  queues := by
    obtain ⟨more, hstack⟩ := h.queues
    obtain ⟨more', hstack'⟩ := h'.queues
    exact ⟨more ++ more', by rw [hstack', hstack, handUp_handUp]⟩
  closed := by
    intro i hi hnot
    obtain ⟨s, hs⟩ := ScopeTree.scope?_isSome hi
    have hsame := h.closed i hi hnot
    rw [h'.closed i (ScopeTree.lt_size (hsame.trans hs)) (h.opened ▸ hnot), hsame]
  outer := by
    intro i hi
    obtain ⟨added, hvar, hscope⟩ := h.outer i hi
    obtain ⟨added', hvar', hscope'⟩ := h'.outer i (h.opened ▸ hi)
    refine ⟨added ++ added', ?_, ?_⟩
    · exact List.forall_mem_append.mpr ⟨hvar, hvar'⟩
    · rw [hscope', hscope, Option.map_map]
      simp only [Function.comp_def, Scope.defineAll_append]
  current := by
    obtain ⟨added, inner, hscope⟩ := h.current
    obtain ⟨added', inner', hscope'⟩ := h'.current
    refine ⟨added ++ added', inner ++ inner', ?_⟩
    rw [current_congr h.opened] at hscope'
    rw [hscope', hscope, Option.map_map]
    simp [Function.comp_def, Scope.defineAll]

/-- Open scopes keep their parents. -/
theorem parent_eq (h : Touches w w') {i : Nat} (hi : i ∈ w.opened) :
    (w'.tree.scope? i).map (·.parent) = (w.tree.scope? i).map (·.parent) := by
  rw [opened_eq_cons (List.ne_nil_of_mem hi)] at hi
  rcases List.mem_cons.mp hi with rfl | hi
  · obtain ⟨added, inner, hscope⟩ := h.current
    rw [hscope, Option.map_map]
    rfl
  · obtain ⟨added, _, hscope⟩ := h.outer i hi
    rw [hscope, Option.map_map]
    rfl

/-- So the open scopes stay a way out. -/
theorem leadsOut (h : Touches w w') (hout : w.tree.LeadsOut w.opened) :
    w'.tree.LeadsOut w'.opened :=
  h.opened ▸ hout.congr fun _ hi => h.parent_eq hi

end Touches

/-! ### The steps of a walk -/

/-- In a state whose open scopes are a way out, the current one comes first and is no other. -/
theorem opened_of_leadsOut (hout : w.tree.LeadsOut w.opened) :
    w.opened = w.current :: w.opened.tail ∧ w.current ∉ w.opened.tail := by
  have hopened := opened_eq_cons hout.ne_nil
  exact ⟨hopened, (List.nodup_cons.mp (hopened ▸ hout.nodup)).1⟩

/-- A name declared now belongs to an open scope. -/
theorem owner_mem_opened (hout : w.tree.LeadsOut w.opened) (kind : DefinitionKind) :
    w.owner kind ∈ w.opened := by
  have hcurrent : w.current ∈ w.opened := (opened_of_leadsOut hout).1 ▸ List.mem_cons_self
  unfold owner
  split
  · cases hv : w.tree.variableScope? w.current with
    | none => exact hcurrent
    | some v =>
      refine hout.variableScopeWithin?_mem ?_ hv
      rw [(opened_of_leadsOut hout).1]
      rfl
  · exact hcurrent

theorem hoists_iff (kind : DefinitionKind) : kind.hoists = true ↔ kind = .declared .byVar := by
  constructor
  · intro h
    unfold DefinitionKind.hoists at h
    split at h
    · rfl
    · cases h
  · rintro rfl
    rfl

theorem touches_define (hout : w.tree.LeadsOut w.opened) (name : Label) (kind : DefinitionKind) :
    Touches w (w.define source name kind) := by
  have hscope : ∀ i : Nat, (w.define source name kind).tree.scope? i =
      (w.tree.scope? i).map fun s =>
        if w.owner kind = i then s.define ⟨.ofLabel source name, kind⟩ else s :=
    fun i => ScopeTree.scope?_update ..
  obtain ⟨hopened, hnot⟩ := opened_of_leadsOut hout
  constructor
  case queues => exact ⟨[], (handUp_nil _).symm⟩
  case closed =>
    intro i _ hi
    have hne : w.owner kind ≠ i := fun h => hi (h ▸ owner_mem_opened hout kind)
    simp [hscope, hne]
  case outer =>
    intro i hi
    by_cases howner : w.owner kind = i
    · -- Only a declaration by `var` is owned by a scope around the current one.
      have hhoists : kind.hoists = true := by
        by_contra hstays
        rw [owner, if_neg hstays] at howner
        exact hnot (howner ▸ hi)
      refine ⟨[⟨.ofLabel source name, kind⟩], ?_, ?_⟩
      · exact List.forall_mem_singleton.mpr ((hoists_iff kind).mp hhoists)
      · simp only [hscope, if_pos howner]
        rfl
    · exact ⟨[], nofun, by simp [hscope, howner, Scope.defineAll]⟩
  case current =>
    by_cases howner : w.owner kind = w.current
    · refine ⟨[⟨.ofLabel source name, kind⟩], [], ?_⟩
      simp [hscope, howner, Scope.defineAll, Scope.define]
    · exact ⟨[], [], by simp [hscope, howner, Scope.defineAll]⟩

theorem touches_refer (w : Walk) (name : Label) (access : Access) (init : Bool) :
    Touches w (w.refer source name access init) := by
  have htree := tree_refer source w name access init
  constructor
  case queues => exact ⟨[w.use source name access init], by rw [refer_eq]⟩
  case closed => exact fun i _ _ => by rw [htree]
  case outer => exact fun i _ => ⟨[], nofun, by simp [htree, Scope.defineAll]⟩
  case current => exact ⟨[], [], by simp [htree, Scope.defineAll]⟩

/-- The scopes that were there when one is opened: the current one has got a child. -/
theorem scope?_enter (hcurrent : w.current < w.tree.size) (kind : ScopeKind) (span : Span)
    {i : Nat} (hi : i < w.tree.size) :
    (w.enter kind span).tree.scope? i =
      (w.tree.scope? i).map fun s => if w.current = i then s.adopt w.tree.size else s :=
  (ScopeTree.scope?_add hcurrent kind span i).trans (if_neg (Nat.ne_of_lt hi))

theorem current_lt_of_leadsOut (hout : w.tree.LeadsOut w.opened) : w.current < w.tree.size :=
  hout.lt_size ((opened_of_leadsOut hout).1 ▸ List.mem_cons_self)

/-- The open scopes stay a way out when one is opened. -/
theorem leadsOut_enter (hout : w.tree.LeadsOut w.opened) (kind : ScopeKind) (span : Span) :
    (w.enter kind span).tree.LeadsOut (w.enter kind span).opened := by
  have hrest : (w.enter kind span).tree.LeadsOut w.opened := by
    refine hout.congr fun i hi => ?_
    rw [scope?_enter (current_lt_of_leadsOut hout) kind span (hout.lt_size hi), Option.map_map]
    congr 1
    funext s
    by_cases hp : w.current = i <;> simp [hp, Scope.adopt]
  have hparent : (w.enter kind span).tree.parent? w.tree.size = some w.current :=
    (ScopeTree.parent?_add ..).trans (if_pos rfl)
  rw [opened_enter, (opened_of_leadsOut hout).1]
  exact .inner hparent ((opened_of_leadsOut hout).1 ▸ hrest)

/-- Closing the scope that was opened hands references to the scope that was current then, and
changes no scope that was there. -/
theorem exists_leave (hcurrent : w.current < w.tree.size) {kind : ScopeKind} {span : Span}
    (h : Touches (w.enter kind span) w') :
    (∃ left, w'.leave.stack = handUp left w.stack) ∧
      ∀ i : Nat, i < w.tree.size → w'.leave.tree.scope? i = w'.tree.scope? i := by
  obtain ⟨more, hstack⟩ := h.queues
  have hstack' : w'.stack = ⟨w.tree.size, more⟩ :: w.stack := hstack
  obtain ⟨s, hs⟩ : ∃ s, w'.tree.scope? w.tree.size = some s := by
    obtain ⟨added, inner, hnew⟩ := h.current
    have hempty : (w.enter kind span).tree.scope? w.tree.size =
        some (.empty w.tree.size kind (some w.current) span) :=
      (ScopeTree.scope?_add hcurrent kind span _).trans (if_pos rfl)
    rw [current_enter, hempty] at hnew
    exact ⟨_, hnew⟩
  rw [leave_eq hstack' hs]
  refine ⟨⟨_, rfl⟩, fun i hi => ?_⟩
  have hne : w.tree.size ≠ i := Nat.ne_of_gt hi
  rw [ScopeTree.scope?_update]
  simp [hne]

/-- **A scope that is opened, and closed when what is in it has been walked**, touches nothing
that could not have been touched around it. -/
theorem touches_scope (hout : w.tree.LeadsOut w.opened) {kind : ScopeKind} {span : Span}
    (h : Touches (w.enter kind span) w') : Touches w w'.leave := by
  have hcurrent := current_lt_of_leadsOut hout
  obtain ⟨hopened, hnot⟩ := opened_of_leadsOut hout
  have hmem : w.current ∈ w.opened := hopened ▸ List.mem_cons_self
  obtain ⟨hleft, hscope⟩ := exists_leave hcurrent h
  constructor
  case queues => exact hleft
  case closed =>
    intro i hi hclosed
    have hne : w.current ≠ i := fun he => hclosed (he ▸ hmem)
    have hclosed' : i ∉ (w.enter kind span).opened :=
      List.not_mem_cons_of_ne_of_not_mem (Nat.ne_of_lt hi) hclosed
    have hlt : i < (w.enter kind span).tree.size :=
      Nat.lt_of_lt_of_eq (Nat.lt_succ_of_lt hi) (ScopeTree.size_add ..).symm
    rw [hscope i hi, h.closed i hlt hclosed', scope?_enter hcurrent kind span hi]
    simp [hne]
  case outer =>
    -- What is around the current scope was around the new one, too.
    intro i hi
    have hlt := hout.lt_size (List.mem_of_mem_tail hi)
    have hne : w.current ≠ i := fun he => hnot (he ▸ hi)
    obtain ⟨added, hvar, hkept⟩ := h.outer i (List.mem_of_mem_tail hi)
    refine ⟨added, hvar, ?_⟩
    rw [hscope i hlt, hkept, scope?_enter hcurrent kind span hlt]
    simp [hne]
  case current =>
    obtain ⟨added, _, hkept⟩ := h.outer w.current hmem
    refine ⟨added, [w.tree.size], ?_⟩
    rw [hscope _ hcurrent, hkept, scope?_enter hcurrent kind span hcurrent, Option.map_map]
    simp [Function.comp_def, Scope.adopt, Scope.defineAll]

/-! ### Walking entries -/

mutual

theorem touches_entry (source : Source) : ∀ (e : Entry) {w : Walk}, w.tree.LeadsOut w.opened →
    Touches w (w.entry source e)
  | .definition name kind, _, hout => touches_define hout name kind
  | .reference name access init, w, _ => touches_refer w name access init
  | .scope kind span es, _, hout =>
      touches_scope hout (touches_entries source es (leadsOut_enter hout kind span))

/-- **Walking entries touches open scopes alone.** -/
theorem touches_entries (source : Source) : ∀ (es : List Entry) {w : Walk},
    w.tree.LeadsOut w.opened → Touches w (w.entries source es)
  | [], w, _ => .refl w
  | e :: es, _, hout =>
      have hfirst := touches_entry source e hout
      hfirst.trans (touches_entries source es (hfirst.leadsOut hout))

end

/-- The open scopes of a formed state are a way out. -/
theorem Formed.leadsOut (h : w.Formed) (hopen : w.stack ≠ []) : w.tree.LeadsOut w.opened :=
  h.opened hopen ▸ h.tree.leadsOut_chain h.current_lt

/-- **Walking a node is balanced and touches open scopes alone**, whatever the node and its role,
in every state whose open scopes are the way out of the current one.  The same scopes are open
afterwards.  References are queued behind those that wait at the current scope, and no other queue
changes.  A scope that was not open is as it was.  An open scope around the current one keeps its
children and the references that passed through it; its bindings have only got definitions by
`var`.  The current scope has only got definitions and children. -/
theorem node_touches_open_scopes (source : Source) (node : Node) (role : Role) {w : Walk}
    (hout : w.tree.LeadsOut w.opened) :
    let w' := w.entries source (node.outline role)
    w'.opened = w.opened ∧
      (∃ top rest more, w.stack = top :: rest ∧
        w'.stack = { top with waiting := top.waiting ++ more } :: rest) ∧
      (∀ id : Nat, id < w.tree.size → id ∉ w.opened → w'.tree.scope? id = w.tree.scope? id) ∧
      (∀ id ∈ w.opened.tail, ∃ s s' added,
        w.tree.scope? id = some s ∧ w'.tree.scope? id = some s' ∧
          s'.children = s.children ∧ s'.through = s.through ∧
          (∀ d ∈ added, d.kind = .declared .byVar) ∧ s' = s.defineAll added ∧
          ∀ name, s'.referencesOf name = s.referencesOf name ∧
            s'.definitionsOf name = s.definitionsOf name ++ added.filter (·.name.name = name)) ∧
      ∃ s added inner, w.tree.scope? w.current = some s ∧
        w'.tree.scope? w.current =
          some { s.defineAll added with children := s.children ++ inner } := by
  have htouches := touches_entries source (node.outline role) hout
  refine ⟨htouches.opened, ?_, htouches.closed, ?_, ?_⟩
  · obtain ⟨more, hstack⟩ := htouches.queues
    obtain ⟨top, rest, hcons⟩ := List.exists_cons_of_ne_nil
      (fun hnil => hout.ne_nil (List.map_eq_nil_iff.mpr hnil) : w.stack ≠ [])
    exact ⟨top, rest, more, hcons, by rw [hstack, hcons, handUp]⟩
  · intro id hid
    obtain ⟨s, hs⟩ := ScopeTree.scope?_isSome (hout.lt_size (List.mem_of_mem_tail hid))
    obtain ⟨added, hvar, hkept⟩ := htouches.outer id hid
    rw [hs] at hkept
    exact ⟨s, _, added, hs, hkept, rfl, rfl, hvar, rfl, fun name =>
      ⟨s.referencesOf_defineAll added name, s.definitionsOf_defineAll added name⟩⟩
  · obtain ⟨s, hs⟩ := ScopeTree.scope?_isSome (current_lt_of_leadsOut hout)
    obtain ⟨added, inner, hkept⟩ := htouches.current
    rw [hs] at hkept
    exact ⟨s, added, inner, hs, hkept⟩

/-! ### A declaration in a block -/

namespace VarInBlock

/-- The state in a block of a function. -/
def state : Walk := ((start ⟨0, 9⟩).enter .function ⟨0, 9⟩).enter .block ⟨0, 9⟩

/-- The declaration `var a = b`. -/
def declaration : Node :=
  .node (.onFirstLine 0 .variableDeclaration 0 9 [])
    [.node (.onFirstLine 1 .variableDeclarator 4 9 [])
      [.node (.onFirstLine 2 .identifier 4 5 [.name]) [],
        .node (.onFirstLine 3 .identifier 8 9 [.value]) []]]

theorem leadsOut_state : state.tree.LeadsOut state.opened :=
  leadsOut_enter (leadsOut_enter ((formed_start _).leadsOut (List.cons_ne_nil _ _)) _ _) _ _

end VarInBlock

/-- In a block of a function `var a = b` is declared in the function, and waits in the block. -/
theorem node_touches_function_of_block :
    let w := VarInBlock.state
    let w' := w.entries (Source.ofText "var a = b") (VarInBlock.declaration.outline .code)
    w.tree.LeadsOut w.opened ∧ w'.opened = [2, 1, 0] ∧
      (w'.tree.scope? 1).map (·.names) = some ["a"] ∧
      ∃ (s s' : Scope) (added : List Definition),
        w.tree.scope? 1 = some s ∧ w'.tree.scope? 1 = some s' ∧
        (∀ d ∈ added, d.kind = .declared .byVar) ∧
        s'.definitionsOf "a" = s.definitionsOf "a" ++ added.filter (·.name.name = "a") := by
  obtain ⟨hopened, _, _, houter, _⟩ := node_touches_open_scopes (Source.ofText "var a = b")
    VarInBlock.declaration .code VarInBlock.leadsOut_state
  obtain ⟨s, s', added, hs, hs', _, _, hvar, _, hbindings⟩ := houter 1 (by decide)
  exact ⟨VarInBlock.leadsOut_state, hopened, by decide +kernel, s, s', added, hs, hs', hvar,
    (hbindings "a").2⟩

end Walk

end ScopeLint
