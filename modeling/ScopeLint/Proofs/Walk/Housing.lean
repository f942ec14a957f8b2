import ScopeLint.Proofs.Outline.Housed
import ScopeLint.Proofs.Walk.Bindings
import ScopeLint.Proofs.Walk.Sites

/-! # Scopes hold only definitions that may live there

The definitions of a housed outline are recorded where definitions of their kind may
live, and the scope of a function's own name ends with that name and the scope of the
function (`ScopeTree.Housed`).  Between the steps that open such a scope and fill it,
it is still pending; once it is full the walk stands in other scopes, and no definition
goes to it any more, since none is written there and those by `var` go to variable
scopes.
-/

namespace ScopeLint

open Syntax (Label Program)

namespace Scope

/-- The definitions in a scope, binding by binding. -/
def declared (s : Scope) : List (List Definition) := s.bindings.map (·.definitions)

theorem declared_resolve (s : Scope) (r : Reference) : (s.resolve r).declared = s.declared := by
  have hkeep : ∀ bs : List Binding, (addReference { r with resolved := some s.id } bs).map
      (·.definitions) = bs.map (·.definitions) := by
    intro bs
    induction bs with
    | nil => rfl
    | cons b rest ih =>
      unfold addReference
      split
      · rfl
      · rw [List.map_cons, List.map_cons, ih]
  exact hkeep s.bindings

theorem declared_settleAll (s : Scope) (rs : List Reference) :
    (s.settleAll rs).declared = s.declared :=
  settleAll_keeps (·.declared) declared_resolve (fun _ _ => rfl) rs s

/-- A definition of a scope that got one more is that one, or was there before. -/
theorem mem_declared_define {s : Scope} {d d' : Definition} {ds : List Definition}
    (hds : ds ∈ (s.define d).declared) (hd : d' ∈ ds) :
    d' = d ∨ ∃ ds' ∈ s.declared, d' ∈ ds' := by
  obtain ⟨b, hb, rfl⟩ := List.mem_map.mp hds
  rcases mem_addDefinition hb with hb | rfl | ⟨b₀, hb₀, _, rfl⟩
  · exact Or.inr ⟨b.definitions, List.mem_map_of_mem hb, hd⟩
  · exact Or.inl (List.mem_singleton.mp hd)
  · rcases List.mem_append.mp hd with hd | hd
    · exact Or.inr ⟨b₀.definitions, List.mem_map_of_mem hb₀, hd⟩
    · exact Or.inl (List.mem_singleton.mp hd)

/-- **The scope of a function's own name**: it holds the name, and the scope of the
function is the only one in it. -/
def NamesFunction (t : ScopeTree) (s : Scope) : Prop :=
  ∃ d : Definition, ∃ c : Nat, s.declared = [[d]] ∧ d.kind = .functionName ∧ s.children = [c] ∧
    t.kind? c = some .function

end Scope

namespace ScopeTree

/-- **Scopes hold what may live in them**, and scopes of functions' own names are full,
those that are pending aside. -/
structure Housed (t : ScopeTree) (pending : List ScopeId) : Prop where
  root : t.kind? rootId = some .global
  lives : ∀ (i : Nat) s, t.scope? i = some s → ∀ ds ∈ s.declared, ∀ d ∈ ds,
    d.kind.livesIn s.kind = true
  full : ∀ (i : Nat) s, t.scope? i = some s → s.kind = .functionExpressionName →
    i ∉ pending → s.NamesFunction t

variable {t : ScopeTree} {pending : List ScopeId}

/-- In the global scope alone there is nothing. -/
theorem housed_ofSpan (span : Span) : (ofSpan span).Housed [] where
  root := rfl
  lives := by
    intro i s hs ds hds
    cases i with
    | zero =>
      rw [← Option.some.inj hs] at hds
      exact absurd hds List.not_mem_nil
    | succ i => cases hs
  full := by
    intro i s hs hkind
    cases i with
    | zero =>
      rw [← Option.some.inj hs] at hkind
      cases hkind
    | succ i => cases hs

theorem Housed.mono (h : t.Housed []) (pending : List ScopeId) : t.Housed pending where
  root := h.root
  lives := h.lives
  full := fun i s hs hkind _ => h.full i s hs hkind List.not_mem_nil

/-- A pending scope that is full is pending no more. -/
theorem Housed.settled {id : Nat} (h : t.Housed [id])
    (hfull : ∀ s, t.scope? id = some s → s.NamesFunction t) : t.Housed [] where
  root := h.root
  lives := h.lives
  full := by
    intro i s hs hkind _
    by_cases hi : i = id
    · exact hfull s (hi ▸ hs)
    · exact h.full i s hs hkind fun hmem => hi (List.mem_singleton.mp hmem)

/-- A step that keeps what scopes declare keeps where definitions live. -/
theorem Housed.update (h : t.Housed pending) {f : Scope → Scope}
    (hkind : ∀ s, (f s).kind = s.kind) (hdeclared : ∀ s, (f s).declared = s.declared)
    (hchildren : ∀ s, (f s).children = s.children) (id : Nat) :
    (t.update id f).Housed pending := by
  have hkinds := kind?_update (t := t) hkind id
  have hold : ∀ (i : Nat) s, (t.update id f).scope? i = some s → ∃ s₀, t.scope? i = some s₀ ∧
      s.kind = s₀.kind ∧ s.declared = s₀.declared ∧ s.children = s₀.children := by
    intro i s hs
    rw [scope?_update] at hs
    obtain ⟨s₀, hs₀, rfl⟩ := Option.map_eq_some_iff.mp hs
    refine ⟨s₀, hs₀, ?_⟩
    split
    · exact ⟨hkind s₀, hdeclared s₀, hchildren s₀⟩
    · exact ⟨rfl, rfl, rfl⟩
  constructor
  case root =>
    rw [hkinds]
    exact h.root
  case lives =>
    intro i s hs
    obtain ⟨s₀, hs₀, hk, hd, _⟩ := hold i s hs
    rw [hk, hd]
    exact h.lives i s₀ hs₀
  case full =>
    intro i s hs hfen hnot
    obtain ⟨s₀, hs₀, hk, hd, hc⟩ := hold i s hs
    obtain ⟨d, c, hdeclared, hname, hchild, hfunction⟩ := h.full i s₀ hs₀ (hk ▸ hfen) hnot
    exact ⟨d, c, hd.trans hdeclared, hname, hc.trans hchild, (hkinds c).trans hfunction⟩

/-- A definition may be recorded where its kind may live, except in a full scope of a
function's own name. -/
theorem Housed.define (h : t.Housed pending) {id : Nat} {kind : ScopeKind}
    (hid : t.kind? id = some kind) {d : Definition} (hlives : d.kind.livesIn kind = true)
    (hout : kind ≠ .functionExpressionName ∨ id ∈ pending) : (t.define id d).Housed pending := by
  have hkinds : ∀ i, (t.define id d).kind? i = t.kind? i :=
    kind?_update (f := (·.define d)) (fun _ => rfl) id
  have hold : ∀ (i : Nat) s, (t.define id d).scope? i = some s → ∃ s₀, t.scope? i = some s₀ ∧
      s = if id = i then s₀.define d else s₀ := by
    intro i s hs
    rw [ScopeTree.define, scope?_update] at hs
    obtain ⟨s₀, hs₀, rfl⟩ := Option.map_eq_some_iff.mp hs
    exact ⟨s₀, hs₀, rfl⟩
  constructor
  case root =>
    rw [hkinds]
    exact h.root
  case lives =>
    intro i s hs ds hds d' hd'
    obtain ⟨s₀, hs₀, rfl⟩ := hold i s hs
    by_cases hi : id = i
    · rw [if_pos hi] at hds ⊢
      have hkind : s₀.kind = kind :=
        Option.some.inj ((kind?_of_scope hs₀).symm.trans (hi ▸ hid))
      rcases Scope.mem_declared_define hds hd' with rfl | ⟨ds', hds', hd'⟩
      · exact hkind ▸ hlives
      · exact h.lives i s₀ hs₀ ds' hds' d' hd'
    · rw [if_neg hi] at hds ⊢
      exact h.lives i s₀ hs₀ ds hds d' hd'
  case full =>
    intro i s hs hfen hnot
    obtain ⟨s₀, hs₀, rfl⟩ := hold i s hs
    have hi : id ≠ i := by
      rintro rfl
      rw [if_pos rfl] at hfen
      have hkind : s₀.kind = kind := Option.some.inj ((kind?_of_scope hs₀).symm.trans hid)
      rcases hout with hne | hmem
      · exact hne (hkind.symm.trans hfen)
      · exact hnot hmem
    rw [if_neg hi] at hfen ⊢
    obtain ⟨d', c, hdeclared, hname, hchild, hfunction⟩ := h.full i s₀ hs₀ hfen hnot
    exact ⟨d', c, hdeclared, hname, hchild, (hkinds c).trans hfunction⟩

/-- A scope may be opened in any scope but a full one of a function's own name. -/
theorem Housed.add (h : t.Housed pending) {parent : Nat} {outer : ScopeKind}
    (hparent : t.kind? parent = some outer)
    (hout : outer ≠ .functionExpressionName ∨ parent ∈ pending) {kind : ScopeKind}
    (hkind : kind ≠ .functionExpressionName ∨ t.size ∈ pending) (span : Span) :
    (t.add parent kind span).Housed pending := by
  have hlt : parent < t.size := lt_size_of_kind? hparent
  have hkinds := kind?_add hlt kind span
  have hkeep : ∀ {i : Nat} {k : ScopeKind}, t.kind? i = some k →
      (t.add parent kind span).kind? i = some k := by
    intro i k hi
    rw [hkinds, if_neg (Nat.ne_of_lt (lt_size_of_kind? hi))]
    exact hi
  constructor
  case root => exact hkeep h.root
  case lives =>
    intro i s hs
    rcases scope?_add_cases hlt kind span i s hs with ⟨_, rfl⟩ | ⟨s₀, _, hs₀, rfl⟩
    · exact fun ds hds => absurd hds List.not_mem_nil
    · split <;> exact h.lives i s₀ hs₀
  case full =>
    intro i s hs hfen hnot
    rcases scope?_add_cases hlt kind span i s hs with ⟨rfl, rfl⟩ | ⟨s₀, _, hs₀, rfl⟩
    · rcases hkind with hne | hmem
      · exact absurd hfen hne
      · exact absurd hmem hnot
    · have hi : parent ≠ i := by
        rintro rfl
        rw [if_pos rfl] at hfen
        have hkind₀ : s₀.kind = outer :=
          Option.some.inj ((kind?_of_scope hs₀).symm.trans hparent)
        rcases hout with hne | hmem
        · exact hne (hkind₀.symm.trans hfen)
        · exact hnot hmem
      rw [if_neg hi] at hfen ⊢
      obtain ⟨d, c, hdeclared, hname, hchild, hfunction⟩ := h.full i s₀ hs₀ hfen hnot
      exact ⟨d, c, hdeclared, hname, hchild, hkeep hfunction⟩

/-- The scope of a function's own name may be opened with the name and the scope of the
function in it. -/
theorem Housed.addNamed (h : t.Housed []) {parent : Nat} {outer : ScopeKind}
    (hparent : t.kind? parent = some outer) (hout : outer ≠ .functionExpressionName)
    (span extent : Span) {d : Definition} (hd : d.kind = .functionName) :
    (((t.add parent .functionExpressionName span).define t.size d).add t.size
      .function extent).Housed [] := by
  have hlt : parent < t.size := lt_size_of_kind? hparent
  have hmem : t.size ∈ [t.size] := List.mem_singleton_self _
  have hadded : (t.add parent .functionExpressionName span).Housed [t.size] :=
    (h.mono [t.size]).add hparent (Or.inl hout) (Or.inr hmem) span
  have hadopts : (t.add parent .functionExpressionName span).scope? t.size =
      some (.empty t.size .functionExpressionName (some parent) span) := by
    rw [scope?_add hlt, if_pos rfl]
  generalize t.add parent .functionExpressionName span = t₁ at hadded hadopts
  have hlives : d.kind.livesIn .functionExpressionName = true := by rw [hd]; rfl
  have hdefined := hadded.define (kind?_of_scope hadopts) hlives (Or.inr hmem)
  have hdefines : (t₁.define t.size d).scope? t.size =
      some ((Scope.empty t.size .functionExpressionName (some parent) span).define d) := by
    rw [ScopeTree.define, scope?_update, hadopts, Option.map_some, if_pos rfl]
  generalize t₁.define t.size d = t₂ at hdefined hdefines
  have hfunction : ScopeKind.function ≠ .functionExpressionName := ScopeKind.noConfusion
  refine (hdefined.add (kind?_of_scope hdefines) (Or.inr hmem) (Or.inl hfunction) extent).settled ?_
  -- The scope holds the name and has adopted the scope of the function.
  intro s hs
  have hlt₂ : t.size < t₂.size := lt_size hdefines
  rw [scope?_add hlt₂, if_neg (Nat.ne_of_lt hlt₂), hdefines, Option.map_some, if_pos rfl] at hs
  rw [← Option.some.inj hs]
  refine ⟨d, t₂.size, rfl, hd, rfl, ?_⟩
  rw [kind?_add hlt₂, if_pos rfl]

end ScopeTree

namespace Walk

/-- Where a definition is recorded it may live. -/
theorem Formed.exists_kind_owner {w : Walk} (h : w.Formed)
    (hroot : w.tree.kind? ScopeTree.rootId = some .global) {scope : ScopeKind}
    (hscope : w.tree.kind? w.current = some scope) {kind : DefinitionKind}
    (hwritten : kind.writtenIn scope = true) :
    ∃ k, w.tree.kind? (w.owner kind) = some k ∧ kind.livesIn k = true ∧
      (k = scope ∨ k.isVariableScope = true) := by
  have howner := h.owner?_current hroot kind
  unfold ScopeTree.owner? at howner
  by_cases hhoists : kind.hoists = true
  · rw [if_pos hhoists] at howner
    have hvariable := List.find?_some howner
    obtain ⟨k, hk, hvar⟩ := (Option.any_eq_true _ _).mp hvariable
    refine ⟨k, hk, ?_, Or.inr hvar⟩
    cases kind with
    | declared keyword =>
      cases keyword with
      | byVar => exact hvar
      | byLet | byConst => cases hhoists
    | _ => cases hhoists
  · rw [if_neg hhoists] at howner
    rw [← Option.some.inj howner]
    refine ⟨scope, hscope, ?_, Or.inl rfl⟩
    rw [DefinitionKind.writtenIn, Bool.eq_false_iff.mpr hhoists, Bool.false_or] at hwritten
    exact hwritten

theorem Formed.housed_leave {w : Walk} (hw : w.Formed) {pending : List ScopeId}
    (h : w.tree.Housed pending) : w.leave.tree.Housed pending := by
  cases hstack : w.stack with
  | nil =>
    rw [Walk.leave, hstack]
    exact h
  | cons top rest =>
    have hkind : ∀ s : Scope, (s.settleAll top.waiting).kind = s.kind :=
      Scope.settleAll_keeps (·.kind) (fun _ _ => rfl) (fun _ _ => rfl) top.waiting
    rw [hw.leave_tree hstack]
    exact h.update hkind (Scope.declared_settleAll · top.waiting)
      (Scope.mild_settleAll top.waiting).children top.id

theorem Formed.housed_leaveAll : ∀ (n : Nat) {w : Walk}, w.Formed → w.tree.Housed [] →
    (w.leaveAll n).tree.Housed []
  | 0, _, _, h => h
  | n + 1, _, hw, h => housed_leaveAll n hw.leave (hw.housed_leave h)

/-! ### Runs -/

/-- The walk stands in a scope that entries are housed in. -/
structure Housing (w : Walk) (scope : ScopeKind) : Prop where
  formed : w.Formed
  stack : w.stack ≠ []
  kind : w.tree.kind? w.current = some scope
  ordinary : scope ≠ .functionExpressionName
  housed : w.tree.Housed []

theorem housing_start (span : Span) : (start span).Housing .global where
  formed := formed_start span
  stack := List.cons_ne_nil _ _
  kind := rfl
  ordinary := ScopeKind.noConfusion
  housed := ScopeTree.housed_ofSpan span

variable {w : Walk} {scope : ScopeKind}

/-- Behind an entry the walk stands in the same scope. -/
theorem Housing.next (h : w.Housing scope) {source : Source} {e : Entry}
    (he : (w.entry source e).tree.Housed []) : (w.entry source e).Housing scope where
  formed := Formed.entry e h.formed h.stack
  stack := stack_entry h.stack source e
  kind := by
    rw [current_entry, (h.formed.grows_entry h.stack source e).kind _ h.formed.current_lt]
    exact h.kind
  ordinary := h.ordinary
  housed := he

theorem Housing.entries {source : Source} {es : List Entry}
    (hes : ∀ e ∈ es, ∀ {w : Walk}, w.Housing scope → (w.entry source e).tree.Housed []) :
    ∀ {w : Walk}, w.Housing scope → (w.entries source es).tree.Housed [] := by
  induction es with
  | nil => exact fun h => h.housed
  | cons e es ih =>
    intro w h
    have he := hes e (List.mem_cons_self ..) h
    exact ih (fun e he => hes e (List.mem_cons_of_mem _ he)) (h.next he)

/-- A scope is opened, and entries of its own are housed in it. -/
theorem Housing.enter (h : w.Housing scope) {kind : ScopeKind}
    (hkind : kind ≠ .functionExpressionName) (span : Span) : (w.enter kind span).Housing kind where
  formed := h.formed.enter h.stack kind span
  stack := List.cons_ne_nil _ _
  kind := by
    show (w.tree.add w.current kind span).kind? w.tree.size = _
    rw [ScopeTree.kind?_add h.formed.current_lt, if_pos rfl]
  ordinary := hkind
  housed := h.housed.add h.kind (Or.inl h.ordinary) (Or.inl hkind) span

/-- The scope of a function's own name is opened and filled at once, and then the walk
stands in the scope of the function. -/
theorem Housing.enterNamed (h : w.Housing scope) (source : Source) (name : Label)
    (span extent : Span) :
    (((w.enter .functionExpressionName span).define source name .functionName).enter
      .function extent).Housing .function := by
  have hopen : (w.enter .functionExpressionName span).stack ≠ [] := List.cons_ne_nil _ _
  have hentered := h.formed.enter h.stack .functionExpressionName span
  have hnamed := hentered.define source name .functionName
  constructor
  case formed => exact hnamed.enter hopen .function extent
  case stack => exact List.cons_ne_nil _ _
  case kind =>
    rw [current_enter]
    show (ScopeTree.add _ _ _ _).kind? _ = _
    rw [ScopeTree.kind?_add hnamed.current_lt, if_pos rfl]
  case ordinary => exact ScopeKind.noConfusion
  case housed =>
    exact h.housed.addNamed h.kind h.ordinary span extent (d := ⟨.ofLabel source name, _⟩) rfl

/-- **A housed entry is recorded where it may live.** -/
theorem housed_entry {source : Source} {e : Entry} (he : e.Housed scope) :
    ∀ {w : Walk}, w.Housing scope → (w.entry source e).tree.Housed [] := by
  induction he with
  | definition name hwritten =>
    intro w h
    obtain ⟨k, hk, hlives, hout⟩ :=
      h.formed.exists_kind_owner h.housed.root h.kind hwritten
    refine h.housed.define hk hlives (Or.inl ?_)
    rintro rfl
    rcases hout with hscope | hvariable
    · exact h.ordinary hscope.symm
    · cases hvariable
  | reference name access init =>
    intro w h
    show (w.refer source name access init).tree.Housed []
    rw [tree_refer]
    exact h.housed
  | @scope _ kind span entries hkind _ ih =>
    intro w h
    have hentered := h.enter hkind span
    have hinner : (Walk.entries source (w.enter kind span) entries).Formed :=
      Formed.entries entries hentered.formed hentered.stack
    exact hinner.housed_leave (hentered.entries ih)
  | @namedFunction _ name span extent entries _ ih =>
    intro w h
    have hentered := h.enterNamed source name span extent
    have hinner : (Walk.entries source _ entries).Formed :=
      Formed.entries entries hentered.formed hentered.stack
    exact hinner.leave.housed_leave (hinner.housed_leave (hentered.entries ih))

end Walk

end ScopeLint
