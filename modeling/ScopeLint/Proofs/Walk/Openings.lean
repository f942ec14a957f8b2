import ScopeLint.Proofs.Outline.Within
import ScopeLint.Proofs.ScopeTree.Preorder
import ScopeLint.Proofs.Walk.Formed

/-! # The scopes that a walk opens

A walk opens the scopes of its outline in the order in which they stand there, and
no others (`analyze_openings`).  The innermost open scope always lies around the
last scope opened, or is that scope, so a new scope stands inside the one numbered
before it or inside one around that: scopes are numbered in preorder
(`analyze_numbered`).
-/

namespace ScopeLint

open Syntax (Label Program)

/-! ### Openings -/

mutual

/-- The scopes that an entry opens, each with its kind and its span, in order. -/
def Entry.openings : Entry → List (ScopeKind × Span)
  | .definition .. | .reference .. => []
  | .scope kind span entries => (kind, span) :: openingsAll entries

/-- The scopes that entries open, in order. -/
def openingsAll : List Entry → List (ScopeKind × Span)
  | [] => []
  | e :: rest => e.openings ++ openingsAll rest

end

theorem mem_openingsAll {o : ScopeKind × Span} {es : List Entry} :
    o ∈ openingsAll es ↔ ∃ e ∈ es, o ∈ e.openings := by
  induction es with
  | nil => simp [openingsAll]
  | cons e es ih => rw [openingsAll, List.mem_append, ih, List.exists_mem_cons_iff]

/-- What is drawn from a tree opens only scopes of constructs. -/
theorem Entry.Within.openings_kind {labels : List Label} {e : Entry} (h : e.Within labels)
    {o : ScopeKind × Span} (ho : o ∈ e.openings) : o.1.isWhole = false := by
  induction h with
  | definition | reference => exact absurd ho List.not_mem_nil
  | scope span hkind _ ih =>
    rw [openings] at ho
    rcases List.mem_cons.mp ho with rfl | ho
    · exact hkind
    · obtain ⟨e, he, ho⟩ := mem_openingsAll.mp ho
      exact ih e he ho

/-- The outline of a node opens only scopes of constructs. -/
theorem isWhole_of_mem_openings {node : Syntax.Node} {role : Role} {o : ScopeKind × Span}
    (ho : o ∈ openingsAll (node.outline role)) : o.1.isWhole = false := by
  obtain ⟨e, he, ho⟩ := mem_openingsAll.mp ho
  exact (outline_within role node e he).openings_kind ho

namespace ScopeTree

/-- The kinds and spans of the scopes, by id. -/
def openings (t : ScopeTree) : List (ScopeKind × Span) := t.scopes.map fun s => (s.kind, s.span)

/-- An update that keeps kinds and spans keeps those of every scope. -/
theorem openings_update {t : ScopeTree} {f : Scope → Scope}
    (hf : ∀ s, (f s).kind = s.kind ∧ (f s).span = s.span) (id : Nat) :
    (t.update id f).openings = t.openings := by
  apply List.ext_getElem?
  intro i
  show ((t.scopes.modify id f).map _)[i]? = (t.scopes.map _)[i]?
  rw [List.getElem?_map, List.getElem?_map, List.getElem?_modify]
  cases t.scopes[i]? with
  | none => rfl
  | some s => by_cases hi : id = i <;> simp [hi, hf]

theorem openings_add (t : ScopeTree) (parent : Nat) (kind : ScopeKind) (span : Span) :
    (t.add parent kind span).openings = t.openings ++ [(kind, span)] := by
  rw [add, openings_update (f := (·.adopt t.size)) fun _ => ⟨rfl, rfl⟩]
  simp [openings, Scope.empty]

end ScopeTree

namespace Walk

theorem tree_wait (w : Walk) (r : Reference) : (w.wait r).tree = w.tree := by
  rw [wait_eq]

theorem openings_settle (id : Nat) (w : Walk) (r : Reference) :
    (settle id w r).tree.openings = w.tree.openings := by
  unfold settle ScopeTree.resolve?
  cases w.tree.binding? id r.name with
  | none =>
    rw [Option.map_none]
    show (wait _ r).tree.openings = _
    rw [tree_wait]
    exact ScopeTree.openings_update (f := (·.pass r)) (fun _ => ⟨rfl, rfl⟩) id
  | some b => exact ScopeTree.openings_update (f := (·.resolve r)) (fun _ => ⟨rfl, rfl⟩) id

theorem openings_leave (w : Walk) : w.leave.tree.openings = w.tree.openings := by
  unfold leave
  cases w.stack with
  | nil => rfl
  | cons top rest =>
    exact foldl_settle_keeps (·.tree.openings) (openings_settle top.id) top.waiting _

theorem openings_leaveAll : ∀ (n : Nat) (w : Walk), (w.leaveAll n).tree.openings = w.tree.openings
  | 0, _ => rfl
  | n + 1, w => by rw [leaveAll, openings_leaveAll n, openings_leave]

mutual

theorem openings_entry (source : Source) (w : Walk) : ∀ e : Entry,
    (w.entry source e).tree.openings = w.tree.openings ++ e.openings
  | .definition name kind => by
      rw [Entry.openings, List.append_nil]
      exact ScopeTree.openings_update (f := (·.define ⟨.ofLabel source name, kind⟩))
        (fun _ => ⟨rfl, rfl⟩) _
  | .reference name access init => by
      rw [Entry.openings, List.append_nil]
      show (w.refer source name access init).tree.openings = _
      rw [tree_refer]
  | .scope kind span es => by
      rw [Walk.entry, openings_leave, openings_entries source (w.enter kind span) es]
      show (w.tree.add w.current kind span).openings ++ _ = _
      rw [ScopeTree.openings_add, Entry.openings, List.append_assoc]
      rfl

/-- A walk adds the scopes of its entries, in order. -/
theorem openings_entries (source : Source) (w : Walk) : ∀ es : List Entry,
    (w.entries source es).tree.openings = w.tree.openings ++ openingsAll es
  | [] => by rw [Walk.entries, openingsAll, List.append_nil]
  | e :: es => by
      rw [Walk.entries, openings_entries source (w.entry source e) es, openings_entry source w e,
        openingsAll, List.append_assoc]

end

end Walk

/-- **The scopes of a program are the global one and those of its outline, in
order.** -/
theorem analyze_openings (program : Program) :
    (analyze program).openings =
      (.global, program.root.label.span) :: openingsAll program.outline := by
  show (Walk.leaveAll _ _).tree.openings = _
  rw [Walk.openings_leaveAll, Walk.openings_entries]
  rfl

/-- Beyond the global scope there are a module's scope and those of constructs. -/
theorem Syntax.Program.openings_kind_ne (program : Program) {o : ScopeKind × Span}
    (ho : o ∈ openingsAll program.outline) : o.1 ≠ .global := by
  have hinner : ∀ o ∈ openingsAll (program.root.outline .contents), o.1 ≠ .global := by
    intro o ho hglobal
    have hkind := isWhole_of_mem_openings ho
    rw [hglobal] at hkind
    cases hkind
  obtain ⟨source, root, sourceType⟩ := program
  cases sourceType with
  | script => exact hinner o ho
  | module =>
    obtain ⟨e, he, ho⟩ := mem_openingsAll.mp ho
    rw [List.mem_singleton.mp he, Entry.openings] at ho
    rcases List.mem_cons.mp ho with rfl | ho
    · exact ScopeKind.noConfusion
    · exact hinner o ho

/-- Only the first scope of a program is a global one. -/
theorem analyze_kind_eq_global (program : Program) {i : Nat} {s : Scope}
    (hs : (analyze program).scope? i = some s) : s.kind = .global ↔ i = 0 := by
  have hopening : (analyze program).openings[i]? = some (s.kind, s.span) := by
    rw [ScopeTree.openings, List.getElem?_map, show (analyze program).scopes[i]? = some s from hs]
    rfl
  rw [analyze_openings] at hopening
  cases i with
  | zero =>
    have hkind := congrArg Prod.fst (Option.some.inj hopening)
    exact ⟨fun _ => rfl, fun _ => hkind.symm⟩
  | succ i =>
    rw [List.getElem?_cons_succ] at hopening
    have hne := program.openings_kind_ne (List.mem_of_getElem? hopening)
    exact ⟨fun hglobal => absurd hglobal hne, fun hi => absurd hi (Nat.succ_ne_zero i)⟩

/-! ### The numbering -/

namespace Walk

/-- The scopes so far are numbered in preorder, and the innermost open scope is the
last one or lies around it. -/
structure Numbered (w : Walk) : Prop where
  tree : w.tree.Numbered
  current : w.current ∈ w.tree.chain (w.tree.size - 1)

theorem numbered_start (span : Span) : (start span).Numbered where
  tree := fun _ _ hp => nomatch hp
  current := (ScopeTree.formed_ofSpan span).mem_chain_self Nat.one_pos

/-- A step that keeps chains, parents and the size keeps the numbering of the tree. -/
theorem Numbered.tree_update {w : Walk} (h : w.Numbered) (hw : w.Formed) {f : Scope → Scope}
    (hf : ScopeTree.Mild f) (id : Nat) : (w.tree.update id f).Numbered := by
  intro i p hp
  rw [ScopeTree.parent?_update hf.parent] at hp
  have hi : i < w.tree.size := Nat.lt_of_succ_lt (ScopeTree.lt_of_parent hp)
  rw [hw.tree.chain_update hf id hi]
  exact h.tree i p hp

theorem Numbered.define {w : Walk} (h : w.Numbered) (hw : w.Formed) (source : Source)
    (name : Label) (kind : DefinitionKind) : (w.define source name kind).Numbered := by
  have hmild := ScopeTree.Mild.define ⟨.ofLabel source name, kind⟩
  have hlast : w.tree.size - 1 < w.tree.size := Nat.sub_lt hw.tree.pos Nat.one_pos
  constructor
  · exact h.tree_update hw hmild (w.owner kind)
  · show w.current ∈ (w.tree.update (w.owner kind) _).chain _
    rw [define_eq, ScopeTree.define, ScopeTree.size_update, hw.tree.chain_update hmild _ hlast]
    exact h.current

theorem Numbered.refer {w : Walk} (h : w.Numbered) (source : Source) (name : Label)
    (access : Access) (init : Bool) : (w.refer source name access init).Numbered := by
  have htree := tree_refer source w name access init
  constructor
  · rw [htree]
    exact h.tree
  · rw [current_congr (opened_refer source w name access init), htree]
    exact h.current

theorem Numbered.enter {w : Walk} (h : w.Numbered) (hw : w.Formed) (kind : ScopeKind)
    (span : Span) : (w.enter kind span).Numbered := by
  have hformed := hw.tree.add hw.current_lt kind span
  constructor
  · intro i p hp
    have hlt : i + 1 < w.tree.size + 1 := by
      rw [← ScopeTree.size_add w.tree w.current kind span]
      exact ScopeTree.lt_of_parent hp
    have hp : (w.tree.add w.current kind span).parent? (i + 1) = some p := hp
    rw [ScopeTree.parent?_add] at hp
    show p ∈ (w.tree.add w.current kind span).chain i
    rw [hw.tree.chain_add hw.current_lt kind span (by omega)]
    split at hp
    · rename_i hi
      have hlast : w.tree.size - 1 = i := by omega
      rw [← Option.some.inj hp, ← hlast]
      exact h.current
    · exact h.tree i p hp
  · show w.tree.size ∈ (w.tree.add w.current kind span).chain
      ((w.tree.add w.current kind span).size - 1)
    rw [ScopeTree.size_add, Nat.add_sub_cancel]
    exact hformed.mem_chain_self (by rw [ScopeTree.size_add]; omega)

theorem Numbered.leave {w : Walk} (h : w.Numbered) (hw : w.Formed) : w.leave.Numbered := by
  cases hstack : w.stack with
  | nil =>
    have hkeep : w.leave = w := by rw [Walk.leave, hstack]
    rw [hkeep]
    exact h
  | cons top rest =>
    have htree := hw.leave_tree hstack
    have hmild := Scope.mild_settleAll top.waiting
    have hlast : w.tree.size - 1 < w.tree.size := Nat.sub_lt hw.tree.pos Nat.one_pos
    constructor
    · rw [htree]
      exact h.tree_update hw hmild top.id
    · rw [htree, ScopeTree.size_update, hw.tree.chain_update hmild _ hlast, current_eq,
        opened_leave]
      -- What is innermost now lay around the scope that was, or nothing is open.
      cases hopened : w.opened.tail with
      | nil => exact hw.tree.root_mem_chain hlast
      | cons next outer =>
        have hmem : next ∈ w.tree.chain w.current := by
          rw [← hw.opened (hstack ▸ List.cons_ne_nil _ _)]
          exact List.mem_of_mem_tail (hopened ▸ List.mem_cons_self ..)
        exact hw.tree.mem_chain_trans hlast h.current hmem

/-- **At every state of a walk scopes are numbered in preorder.** -/
theorem Reached.numbered {source : Source} {span : Span} {w : Walk} {log : List Record}
    (h : Reached source span w log) : w.Numbered := by
  induction h with
  | start => exact numbered_start span
  | define name kind hw _ ih => exact ih.define hw.formed source name kind
  | declare name kind hw _ ih =>
    exact (ih.define hw.formed source name kind).refer source name .write true
  | refer name access _ _ ih => exact ih.refer source name access false
  | enter kind extent hw _ ih => exact ih.enter hw.formed kind extent
  | leave hw _ ih => exact ih.leave hw.formed

end Walk

/-- **The scopes of a program are numbered in preorder.** -/
theorem analyze_numbered (program : Program) : (analyze program).Numbered := by
  obtain ⟨w, hw, htree, _⟩ := analyze_reached program
  rw [← htree]
  exact hw.numbered.tree

end ScopeLint
