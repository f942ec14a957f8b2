import ScopeLint.Proofs.Outline.Arranged
import ScopeLint.Proofs.ScopeTree.Inspection
import ScopeLint.Proofs.Walk.InModule
import ScopeLint.Proofs.Walk.Openings

/-! # The levels of a scope tree

A walk lists the scopes that entries open next to each other as children of the scope they stand
in, in order, and opens a scope with its own children for each.  So the scopes of a program with
their children are those of its outline (`analyze_levels`), and what holds of the scopes on each
level of an outline holds of the children lists of the tree.
-/

namespace ScopeLint

open Syntax (Label Program)

/-! ### Levels of entries -/

mutual

/-- The scopes that an entry opens, each as its span and the scopes directly inside it, in order. -/
def Entry.levels : Entry → List (Span × List (ScopeKind × Span))
  | .definition .. | .reference .. => []
  | .scope _ span entries => (span, openingsBeside entries) :: levelsAll entries

/-- The scopes that entries open, each with the scopes directly inside it. -/
def levelsAll : List Entry → List (Span × List (ScopeKind × Span))
  | [] => []
  | e :: rest => e.levels ++ levelsAll rest

end

theorem mem_levelsAll {l : Span × List (ScopeKind × Span)} {es : List Entry} :
    l ∈ levelsAll es ↔ ∃ e ∈ es, l ∈ e.levels := by
  induction es with
  | nil => simp [levelsAll]
  | cons e es ih => rw [levelsAll, List.mem_append, ih, List.exists_mem_cons_iff]

theorem openingsBeside_cons (e : Entry) (es : List Entry) :
    openingsBeside (e :: es) = openingsBeside [e] ++ openingsBeside es :=
  openingsBeside_append [e] es

section Arranged

variable {R : ScopeKind × Span → ScopeKind × Span → Prop}

theorem Entry.Arranged.levels {e : Entry} (h : e.Arranged R) :
    ∀ l ∈ e.levels, ScopeLevel R l.1 l.2 := by
  induction h with
  | definition | reference => exact fun _ hl => absurd hl List.not_mem_nil
  | scope kind level _ ih =>
    intro l hl
    rw [Entry.levels] at hl
    rcases List.mem_cons.mp hl with rfl | hl
    · exact level
    · obtain ⟨e, he, hl⟩ := mem_levelsAll.mp hl
      exact ih e he l hl

/-- In entries that stand in order each level does. -/
theorem ArrangedAll.levels {span : Span} {es : List Entry} (h : ArrangedAll R span es) :
    ∀ l ∈ levelsAll es, ScopeLevel R l.1 l.2 := by
  intro l hl
  obtain ⟨e, he, hl⟩ := mem_levelsAll.mp hl
  exact (h.inner e he).levels l hl

end Arranged

/-! ### Levels of trees -/

/-- More scopes on a level. -/
def extendLevel (os : List (ScopeKind × Span)) (l : Span × List (ScopeKind × Span)) :
    Span × List (ScopeKind × Span) :=
  (l.1, l.2 ++ os)

@[simp] theorem extendLevel_nil : extendLevel [] = id := by
  funext l
  simp [extendLevel]

theorem extendLevel_append (os os' : List (ScopeKind × Span)) :
    extendLevel os' ∘ extendLevel os = extendLevel (os ++ os') := by
  funext l
  simp [extendLevel]

section Modify

variable {α : Type} (f : α → α)

theorem modify_append_of_lt {xs : List α} {i : Nat} (h : i < xs.length) (ys : List α) :
    (xs ++ ys).modify i f = xs.modify i f ++ ys := by
  induction xs generalizing i with
  | nil => exact absurd h (Nat.not_lt_zero i)
  | cons x xs ih =>
    cases i with
    | zero => rfl
    | succ i =>
      rw [List.cons_append, List.modify_succ_cons, List.modify_succ_cons, List.cons_append,
        ih (Nat.lt_of_succ_lt_succ h)]

theorem modify_append_length (xs : List α) (y : α) :
    (xs ++ [y]).modify xs.length f = xs ++ [f y] := by
  induction xs with
  | nil => rfl
  | cons x xs ih => rw [List.cons_append, List.length_cons, List.modify_succ_cons, ih]; rfl

end Modify

namespace ScopeTree

/-- The kinds and the spans of the scopes directly inside a scope, in order. -/
def openingsIn (t : ScopeTree) (s : Scope) : List (ScopeKind × Span) :=
  s.children.filterMap fun child => t.openings[child]?

/-- **The scopes of a tree**, by id, each as its span and the scopes directly inside it. -/
def levels (t : ScopeTree) : List (Span × List (ScopeKind × Span)) :=
  t.scopes.map fun s => (s.span, t.openingsIn s)

variable {t : ScopeTree}

@[simp] theorem length_levels : t.levels.length = t.size := List.length_map ..

/-- An update that keeps kinds, spans and children keeps the levels. -/
theorem levels_update {f : Scope → Scope} (hkind : ∀ s, (f s).kind = s.kind)
    (hspan : ∀ s, (f s).span = s.span) (hchildren : ∀ s, (f s).children = s.children) (id : Nat) :
    (t.update id f).levels = t.levels := by
  have hopenings := openings_update (t := t) (fun s => ⟨hkind s, hspan s⟩) id
  apply List.ext_getElem?
  intro i
  show ((t.scopes.modify id f).map _)[i]? = (t.scopes.map _)[i]?
  rw [List.getElem?_map, List.getElem?_map, List.getElem?_modify]
  cases t.scopes[i]? with
  | none => rfl
  | some s => by_cases hi : id = i <;> simp [hi, openingsIn, ← hopenings, hspan, hchildren]

/-- A child of a formed tree is there already before scopes are added. -/
theorem Formed.filterMap_openings (h : t.Formed) {i : Nat} {s : Scope} (hs : t.scope? i = some s)
    (os : List (ScopeKind × Span)) :
    s.children.filterMap (fun child : Nat => (t.openings ++ os)[child]?) = t.openingsIn s := by
  refine List.filterMap_congr fun child hchild => ?_
  have hlt : child < t.openings.length := by
    rw [openings, List.length_map]
    exact lt_of_parent (h.mem_childrenOf.mp (childrenOf_of_scope hs ▸ hchild))
  exact List.getElem?_append_left hlt

/-- **A scope that is added stands last on the level of its parent**, and has no scope in it. -/
theorem Formed.levels_add (h : t.Formed) {parent : Nat} (hparent : parent < t.size)
    (kind : ScopeKind) (span : Span) :
    (t.add parent kind span).levels =
      t.levels.modify parent (extendLevel [(kind, span)]) ++ [(span, [])] := by
  have hnew : (t.openings ++ [(kind, span)])[t.size]? = some (kind, span) := by
    rw [← show t.openings.length = t.size from List.length_map ..]
    exact List.getElem?_concat_length
  apply List.ext_getElem?
  intro i
  rw [levels, List.getElem?_map]
  unfold openingsIn
  rw [openings_add, ScopeTree.add, ScopeTree.update, List.getElem?_modify]
  rcases Nat.lt_trichotomy i t.size with hi | hi | hi
  · obtain ⟨s, hs⟩ := scope?_isSome hi
    have hlevels : i < (t.levels.modify parent (extendLevel [(kind, span)])).length := by
      rw [List.length_modify, length_levels]
      exact hi
    rw [List.getElem?_append_left hi, List.getElem?_append_left hlevels, List.getElem?_modify,
      levels, List.getElem?_map, show t.scopes[i]? = some s from hs]
    have hold := h.filterMap_openings hs [(kind, span)]
    by_cases hi : parent = i
    · simp [hi, Scope.adopt, extendLevel, hold, hnew]
    · simp [hi, hold]
  · have hne : parent ≠ i := Nat.ne_of_lt (hi ▸ hparent)
    have hlevels : (t.levels.modify parent (extendLevel [(kind, span)])).length = i := by
      rw [List.length_modify, length_levels, hi]
    have hlast : (t.scopes ++ [Scope.empty t.size kind (some parent) span])[i]? =
        some (Scope.empty t.size kind (some parent) span) := by
      rw [hi]
      exact List.getElem?_concat_length
    rw [hlast, Option.map_eq_map, Option.map_some, Option.map_some, if_neg hne, ← hlevels,
      List.getElem?_concat_length]
    rfl
  · have hold : (t.scopes ++ [Scope.empty t.size kind (some parent) span])[i]? = none :=
      List.getElem?_eq_none (by rw [List.length_append]; exact hi)
    rw [hold]
    refine (List.getElem?_eq_none ?_).symm
    rw [List.length_append, List.length_modify, length_levels]
    exact hi

end ScopeTree

/-! ### Levels of walks -/

namespace Walk

theorem Formed.levels_leave {w : Walk} (h : w.Formed) : w.leave.tree.levels = w.tree.levels := by
  cases hstack : w.stack with
  | nil => rw [Walk.leave, hstack]
  | cons top rest =>
    rw [h.leave_tree hstack]
    exact ScopeTree.levels_update
      (Scope.settleAll_keeps (·.kind) (fun _ _ => rfl) (fun _ _ => rfl) top.waiting)
      (Scope.settleAll_keeps (·.span) (fun _ _ => rfl) (fun _ _ => rfl) top.waiting)
      (Scope.mild_settleAll top.waiting).children top.id

theorem Formed.levels_leaveAll : ∀ (n : Nat) {w : Walk}, w.Formed →
    (w.leaveAll n).tree.levels = w.tree.levels
  | 0, _, _ => rfl
  | n + 1, w, h => by rw [leaveAll, levels_leaveAll n h.leave, h.levels_leave]

mutual

theorem levels_entry (source : Source) : ∀ (e : Entry) {w : Walk}, w.Formed → w.stack ≠ [] →
    (w.entry source e).tree.levels =
      w.tree.levels.modify w.current (extendLevel (openingsBeside [e])) ++ e.levels
  | .definition name kind, w, _, _ => by
      have hkeeps : (w.define source name kind).tree.levels = w.tree.levels :=
        ScopeTree.levels_update (f := (·.define ⟨.ofLabel source name, kind⟩)) (fun _ => rfl)
          (fun _ => rfl) (fun _ => rfl) _
      rw [Entry.levels, List.append_nil, Walk.entry, hkeeps]
      exact (congrArg (w.tree.levels.modify w.current) extendLevel_nil).trans
        (List.modify_id ..) |>.symm
  | .reference name access init, w, _, _ => by
      rw [Entry.levels, List.append_nil, Walk.entry, tree_refer]
      exact (congrArg (w.tree.levels.modify w.current) extendLevel_nil).trans
        (List.modify_id ..) |>.symm
  | .scope kind span es, w, h, hopen => by
      have hentered := h.enter hopen kind span
      have hinner : (Walk.entries source (w.enter kind span) es).Formed :=
        Formed.entries es hentered (List.cons_ne_nil _ _)
      have hlevels : (w.enter kind span).tree.levels =
          w.tree.levels.modify w.current (extendLevel [(kind, span)]) ++ [(span, [])] :=
        h.tree.levels_add h.current_lt kind span
      -- The scope that is entered is the last one, so its level is the last one too.
      have hlength : (w.enter kind span).current =
          (w.tree.levels.modify w.current (extendLevel [(kind, span)])).length := by
        rw [current_enter, List.length_modify, ScopeTree.length_levels]
      rw [Walk.entry, hinner.levels_leave, levels_entries source es hentered (List.cons_ne_nil _ _),
        hlevels, hlength, modify_append_length, List.append_assoc, Entry.levels,
        openingsBeside_scope]
      rfl

/-- **A walk lists the scopes that its entries open next to each other in the scope it stands
in**, and opens each with the scopes directly inside it. -/
theorem levels_entries (source : Source) : ∀ (es : List Entry) {w : Walk}, w.Formed →
    w.stack ≠ [] →
    (w.entries source es).tree.levels =
      w.tree.levels.modify w.current (extendLevel (openingsBeside es)) ++ levelsAll es
  | [], w, _, _ => by
      rw [levelsAll, List.append_nil, openingsBeside_nil, extendLevel_nil, List.modify_id]
      rfl
  | e :: es, w, h, hopen => by
      -- The levels that the first entry adds stand behind the one that is extended.
      have hlt : w.current <
          (w.tree.levels.modify w.current (extendLevel (openingsBeside [e]))).length := by
        rw [List.length_modify, ScopeTree.length_levels]
        exact h.current_lt
      rw [Walk.entries, levels_entries source es (Formed.entry e h hopen)
          (stack_ne_nil_of_opened (opened_entry source w e) hopen),
        levels_entry source e h hopen, current_congr (opened_entry source w e),
        modify_append_of_lt _ hlt, List.modify_modify_eq, extendLevel_append,
        ← openingsBeside_cons, levelsAll, List.append_assoc]

end

end Walk

/-- **The scopes of a program with their children** are the global one with those that the outline
opens next to each other, and those of the outline, each with those directly inside it. -/
theorem analyze_levels (program : Program) :
    (analyze program).levels =
      (program.root.label.span, openingsBeside program.outline) :: levelsAll program.outline := by
  have hstart := Walk.formed_start program.root.label.span
  have hopen : (Walk.start program.root.label.span).stack ≠ [] := List.cons_ne_nil _ _
  show (Walk.leaveAll _ _).tree.levels = _
  rw [Walk.Formed.levels_leaveAll _ (Walk.Formed.entries _ hstart hopen),
    Walk.levels_entries _ _ hstart hopen]
  rfl

end ScopeLint
