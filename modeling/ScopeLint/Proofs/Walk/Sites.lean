import ScopeLint.Proofs.ScopeTree.Owners
import ScopeLint.Proofs.Walk.InModule
import ScopeLint.Proofs.Walk.Openings

/-! # The scopes that definitions are written in

An outline says of each definition in which scope it is written, when scopes are
numbered in the order opened (`sitesAll`).  The walk numbers them so: it gives the
next number to each scope it opens, and the scope that it stands in is the one around
(`analyze_parents`).  It records a definition in the owner of its name as seen from
there, and the finished tree has the same owner (`Walk.definitionsIn_records`).
-/

namespace ScopeLint

open Syntax (Label Program)

/-! ### Parents -/

mutual

/-- The scopes around the scopes that an entry opens, when the entry stands in the scope
`around` and the first scope it opens is `next`. -/
def Entry.parents (around next : ScopeId) : Entry → List ScopeId
  | .definition .. | .reference .. => []
  | .scope _ _ entries => around :: parentsAll next (next + 1) entries

/-- The scopes around the scopes that entries open. -/
def parentsAll (around next : ScopeId) : List Entry → List ScopeId
  | [] => []
  | e :: rest => e.parents around next ++ parentsAll around (next + e.openings.length) rest

end

namespace ScopeTree

theorem size_eq_openings (t : ScopeTree) : t.size = t.openings.length :=
  (List.length_map _).symm

end ScopeTree

namespace Walk

theorem Formed.parents_leave {w : Walk} (h : w.Formed) : w.leave.tree.parents = w.tree.parents := by
  cases hstack : w.stack with
  | nil => rw [Walk.leave, hstack]
  | cons top rest =>
    rw [h.leave_tree hstack]
    exact ScopeTree.parents_update _ (Scope.mild_settleAll top.waiting).parent top.id

theorem Formed.parents_leaveAll : ∀ (n : Nat) {w : Walk}, w.Formed →
    (w.leaveAll n).tree.parents = w.tree.parents
  | 0, _, _ => rfl
  | n + 1, _, h => by rw [leaveAll, parents_leaveAll n h.leave, h.parents_leave]

theorem size_entry (source : Source) (w : Walk) (e : Entry) :
    (w.entry source e).tree.size = w.tree.size + e.openings.length := by
  rw [ScopeTree.size_eq_openings, ScopeTree.size_eq_openings, openings_entry, List.length_append]

theorem current_entry (source : Source) (w : Walk) (e : Entry) :
    (w.entry source e).current = w.current :=
  current_congr (opened_entry source w e)

theorem stack_entry {w : Walk} (hopen : w.stack ≠ []) (source : Source) (e : Entry) :
    (w.entry source e).stack ≠ [] :=
  stack_ne_nil_of_opened (opened_entry source w e) hopen

mutual

theorem parents_entry (source : Source) : ∀ (e : Entry) {w : Walk}, w.Formed → w.stack ≠ [] →
    (w.entry source e).tree.parents =
      w.tree.parents ++ (e.parents w.current w.tree.size).map some
  | .definition name kind, w, _, _ => by
      rw [Entry.parents, List.map_nil, List.append_nil]
      exact ScopeTree.parents_update (f := (·.define ⟨.ofLabel source name, kind⟩)) _
        (fun _ => rfl) _
  | .reference name access init, w, _, _ => by
      rw [Entry.parents, List.map_nil, List.append_nil]
      show (w.refer source name access init).tree.parents = _
      rw [tree_refer]
  | .scope kind span es, w, h, hopen => by
      have hentered := h.enter hopen kind span
      have hinner : (Walk.entries source (w.enter kind span) es).Formed :=
        Formed.entries es hentered (List.cons_ne_nil _ _)
      rw [Walk.entry, hinner.parents_leave,
        parents_entries source es hentered (List.cons_ne_nil _ _)]
      show (w.tree.add w.current kind span).parents ++
        (parentsAll w.tree.size (w.tree.add w.current kind span).size es).map some = _
      rw [ScopeTree.parents_add, ScopeTree.size_add, List.append_assoc]
      rfl

/-- A walk numbers scopes in the order opened, each inside the one it stands in. -/
theorem parents_entries (source : Source) : ∀ (es : List Entry) {w : Walk}, w.Formed →
    w.stack ≠ [] →
      (w.entries source es).tree.parents =
        w.tree.parents ++ (parentsAll w.current w.tree.size es).map some
  | [], w, _, _ => by rw [Walk.entries, parentsAll, List.map_nil, List.append_nil]
  | e :: es, w, h, hopen => by
      have hrest := parents_entries source es (Formed.entry e h hopen) (stack_entry hopen source e)
      rw [Walk.entries, hrest, parents_entry source e h hopen, current_entry, size_entry,
        parentsAll, List.map_append, List.append_assoc]

end

end Walk

/-! ### Growing trees -/

namespace ScopeTree

theorem kind?_eq_openings (t : ScopeTree) (i : Nat) :
    t.kind? i = (t.openings[i]?).map Prod.fst := by
  rw [openings, List.getElem?_map, Option.map_map]
  rfl

/-- A tree with more scopes at the end has grown. -/
theorem Grows.of_append {t t' : ScopeTree} (h : t.Formed) (h' : t'.Formed)
    {os : List (ScopeKind × Span)} {ps : List (Option ScopeId)}
    (hopenings : t'.openings = t.openings ++ os) (hparents : t'.parents = t.parents ++ ps) :
    t.Grows t' where
  formed := h
  formed' := h'
  size_le := by
    rw [size_eq_openings, size_eq_openings, hopenings, List.length_append]
    exact Nat.le_add_right _ _
  parent := by
    intro i hi
    have hlength : i < t.parents.length := by
      rw [parents, List.length_map]
      exact hi
    rw [parent?_eq_parents, parent?_eq_parents, hparents, List.getElem?_append_left hlength]
  kind := by
    intro i hi
    rw [size_eq_openings] at hi
    rw [kind?_eq_openings, kind?_eq_openings, hopenings, List.getElem?_append_left hi]

end ScopeTree

namespace Walk

theorem Formed.grows_entry {w : Walk} (h : w.Formed) (hopen : w.stack ≠ []) (source : Source)
    (e : Entry) : w.tree.Grows (w.entry source e).tree :=
  .of_append h.tree (Formed.entry e h hopen).tree (openings_entry source w e)
    (parents_entry source e h hopen)

theorem Formed.grows_entries {w : Walk} (h : w.Formed) (hopen : w.stack ≠ []) (source : Source)
    (es : List Entry) : w.tree.Grows (w.entries source es).tree :=
  .of_append h.tree (Formed.entries es h hopen).tree (openings_entries source w es)
    (parents_entries source es h hopen)

theorem Formed.grows_leave {w : Walk} (h : w.Formed) : w.tree.Grows w.leave.tree :=
  .of_append h.tree h.leave.tree (by rw [openings_leave, List.append_nil])
    (by rw [h.parents_leave, List.append_nil])

theorem Formed.grows_leaveAll : ∀ (n : Nat) {w : Walk}, w.Formed →
    w.tree.Grows (w.leaveAll n).tree
  | 0, _, h => .refl h.tree
  | n + 1, _, h => h.grows_leave.trans (grows_leaveAll n h.leave)

end Walk

/-! ### Definitions -/

mutual

/-- The definitions of an entry, each with the scope it is written in, when the entry
stands in the scope `around` and the first scope it opens is `next`. -/
def Entry.sites (source : Source) (around next : ScopeId) : Entry → List (ScopeId × Definition)
  | .definition name kind => [(around, ⟨.ofLabel source name, kind⟩)]
  | .reference .. => []
  | .scope _ _ entries => sitesAll source next (next + 1) entries

/-- The definitions of entries, each with the scope it is written in. -/
def sitesAll (source : Source) (around next : ScopeId) : List Entry → List (ScopeId × Definition)
  | [] => []
  | e :: rest =>
    e.sites source around next ++ sitesAll source around (next + e.openings.length) rest

end

/-- **The definitions of a program, each with the scope it is written in.** -/
def Syntax.Program.sites (program : Program) : List (ScopeId × Definition) :=
  sitesAll program.source ScopeTree.rootId (ScopeTree.rootId + 1) program.outline

namespace Walk

/-- A walk records a definition in its owner. -/
theorem Formed.owner?_current {w : Walk} (h : w.Formed)
    (hroot : w.tree.kind? ScopeTree.rootId = some .global) (kind : DefinitionKind) :
    w.tree.owner? w.current kind = some (w.owner kind) := by
  unfold ScopeTree.owner? owner
  split
  · obtain ⟨v, hv, _⟩ := h.tree.variableScope?_mem h.current_lt
    rw [← h.tree.stopsVar_eq hroot, ← h.tree.variableScope?_eq h.current_lt, hv]
    rfl
  · rfl

variable {source : Source} {t : ScopeTree}

/-- A walk inside the global scope, on the way to a tree. -/
structure Underway (source : Source) (t : ScopeTree) (w : Walk) (es : List Entry) : Prop where
  formed : w.Formed
  stack : w.stack ≠ []
  root : w.tree.kind? ScopeTree.rootId = some .global
  grows : (w.entries source es).tree.Grows t

namespace Underway

variable {w : Walk} {e : Entry} {es : List Entry}

theorem grows_tree (h : Underway source t w es) : w.tree.Grows t :=
  (h.formed.grows_entries h.stack source es).trans h.grows

theorem next (h : Underway source t w (e :: es)) : Underway source t (w.entry source e) es where
  formed := Formed.entry e h.formed h.stack
  stack := stack_entry h.stack source e
  root := ((h.formed.grows_entry h.stack source e).kind _ h.formed.tree.pos).trans h.root
  grows := h.grows

theorem inside {kind : ScopeKind} {span : Span} {inner : List Entry}
    (h : Underway source t w (.scope kind span inner :: es)) :
    Underway source t (w.enter kind span) inner where
  formed := h.formed.enter h.stack kind span
  stack := List.cons_ne_nil _ _
  root := by
    have hadd : w.tree.Grows (w.enter kind span).tree :=
      .add h.formed.tree h.formed.current_lt kind span
    exact (hadd.kind _ h.formed.tree.pos).trans h.root
  grows := by
    have hinner : ((w.enter kind span).entries source inner).Formed :=
      Formed.entries inner (h.formed.enter h.stack kind span) (List.cons_ne_nil _ _)
    exact hinner.grows_leave.trans h.next.grows_tree

/-- The tree has the owner that is recorded. -/
theorem owner?_current (h : Underway source t w es) (kind : DefinitionKind) :
    t.owner? w.current kind = some (w.owner kind) :=
  (h.grows_tree.owner? h.formed.current_lt kind).trans (h.formed.owner?_current h.root kind)

end Underway

theorem definitionsIn_append (log log' : List Record) :
    definitionsIn (log ++ log') = definitionsIn log ++ definitionsIn log' :=
  List.filterMap_append

mutual

theorem definitionsIn_recordsAt : ∀ (e : Entry) {es : List Entry} {w : Walk},
    Underway source t w (e :: es) →
      (definitionsIn (w.recordsAt source e)).map (fun d => (some d.1, d.2)) =
        (e.sites source w.current w.tree.size).map fun s => (t.owner? s.1 s.2.kind, s.2)
  | .definition name kind, _, w, h => by
      show [(some (w.owner kind), _)] = [(t.owner? w.current kind, _)]
      rw [h.owner?_current kind]
  | .reference .., _, _, _ => rfl
  | .scope kind span es, _, w, h => by
      have hrest := definitionsIn_records es h.inside
      show _ = (sitesAll source w.tree.size (w.tree.size + 1) es).map _
      rw [← ScopeTree.size_add w.tree w.current kind span]
      exact hrest

/-- **A walk records definitions in the owners that the finished tree tells.** -/
theorem definitionsIn_records : ∀ (es : List Entry) {w : Walk}, Underway source t w es →
    (definitionsIn (w.records source es)).map (fun d => (some d.1, d.2)) =
      (sitesAll source w.current w.tree.size es).map fun s => (t.owner? s.1 s.2.kind, s.2)
  | [], _, _ => rfl
  | e :: es, w, h => by
      have hrest := definitionsIn_records es h.next
      rw [current_entry, size_entry] at hrest
      rw [records, definitionsIn_append, List.map_append, definitionsIn_recordsAt e h, hrest,
        sitesAll, List.map_append]

end

end Walk

/-- The tree of a program has grown from that where its outline ends. -/
theorem analyze_grows (program : Program) :
    ((Walk.start program.root.label.span).entries program.source program.outline).tree.Grows
      (analyze program) := by
  have hstart := Walk.formed_start program.root.label.span
  exact (Walk.Formed.entries program.outline hstart (List.cons_ne_nil _ _)).grows_leaveAll _

/-- The walk of a program is on the way to its tree from the start. -/
theorem analyze_underway (program : Program) :
    Walk.Underway program.source (analyze program) (.start program.root.label.span)
      program.outline where
  formed := Walk.formed_start _
  stack := List.cons_ne_nil _ _
  root := rfl
  grows := analyze_grows program

/-- **Each scope of a program stands in the one around it in the outline.** -/
theorem analyze_parents (program : Program) :
    (analyze program).parents =
      none :: (parentsAll ScopeTree.rootId (ScopeTree.rootId + 1) program.outline).map some := by
  have hstart := Walk.formed_start program.root.label.span
  have hopen : (Walk.start program.root.label.span).stack ≠ [] := List.cons_ne_nil _ _
  show (Walk.leaveAll _ _).tree.parents = _
  rw [(Walk.Formed.entries program.outline hstart hopen).parents_leaveAll,
    Walk.parents_entries program.source program.outline hstart hopen]
  rfl

/-- **Each definition of a program is recorded in its owner.** -/
theorem Syntax.Program.definitions_eq (program : Program) :
    program.definitions.map (fun d => (some d.1, d.2)) =
      program.sites.map fun s => ((analyze program).owner? s.1 s.2.kind, s.2) :=
  Walk.definitionsIn_records program.outline (analyze_underway program)

end ScopeLint
