import Mathlib.Data.List.Nodup
import Mathlib.Data.List.Perm.Subperm
import ScopeLint.Proofs.ScopeTree.Chain
import ScopeLint.Proofs.ScopeTree.RightToLeft

/-! # Linked arenas

A list of scopes is **linked** (`ScopeTree.Linked`) when ids are places, the first scope
has no parent and each child names the scope that lists it as its parent.  There may be
more to it: scopes that no children list names, and among these circles.  But going down
from the global scope each scope stands at one depth, for the way up is the way by
parents, so no way down meets a scope twice.  There are only so many scopes: hence every
way down ends (`Linked.exists_rightToLeft`), and a scope is met twice just when some
children list names a child twice (`Linked.nodup_iff`).

Validation is enough for this (`linked_of_validate`).
-/

namespace ScopeLint

namespace ScopeTree

/-- **Children name the scope that lists them**, and the first scope has no parent. -/
structure Linked (t : ScopeTree) : Prop where
  pos : 0 < t.size
  id_eq : ∀ (i : Nat) s, t.scope? i = some s → s.id = i
  root : t.parent? rootId = none
  child : ∀ (i : Nat) s, t.scope? i = some s → ∀ c ∈ s.children, t.parent? c = some i

/-- A scope lies `depth` children lists beneath another. -/
inductive Beneath (t : ScopeTree) (top : Nat) : Nat → Nat → Prop
  | refl : Beneath t top 0 top
  | child {depth id c : Nat} {s : Scope} (hid : Beneath t top depth id) (hs : t.scope? id = some s)
      (hc : c ∈ s.children) : Beneath t top (depth + 1) c

variable {t : ScopeTree}

/-! ### Ways down -/

theorem Beneath.trans {a b c m n : Nat} (h : t.Beneath a m b) (h' : t.Beneath b n c) :
    t.Beneath a (m + n) c := by
  induction h' with
  | refl => exact h
  | child _ hs hc ih => exact .child ih hs hc

theorem Beneath.of_child {id c depth x : Nat} {s : Scope} (hs : t.scope? id = some s)
    (hc : c ∈ s.children) (hx : t.Beneath c depth x) : t.Beneath id (1 + depth) x :=
  (Beneath.child .refl hs hc).trans hx

namespace RightToLeft

/-- What an inspection meets lies beneath a scope on its stack. -/
theorem exists_beneath {ids met : List ScopeId} (h : t.RightToLeft ids met) {x : Nat}
    (hx : x ∈ met) : ∃ a ∈ ids, ∃ depth, t.Beneath a depth x := by
  induction h with
  | nil => exact absurd hx List.not_mem_nil
  | @cons id s rest inner after hs _ _ ihinner ihafter =>
    rcases List.mem_cons.mp hx with rfl | hx
    · exact ⟨x, List.mem_cons_self .., 0, .refl⟩
    · rcases List.mem_append.mp hx with hx | hx
      · obtain ⟨c, hc, depth, hbeneath⟩ := ihinner hx
        exact ⟨id, List.mem_cons_self .., _, .of_child hs (List.mem_reverse.mp hc) hbeneath⟩
      · obtain ⟨a, ha, hbeneath⟩ := ihafter hx
        exact ⟨a, List.mem_cons_of_mem _ ha, hbeneath⟩

/-- What is met inside a scope lies properly beneath it. -/
theorem exists_beneath_inner {id : Nat} {s : Scope} (hs : t.scope? id = some s)
    {inner : List ScopeId} (h : t.RightToLeft s.children.reverse inner) {x : Nat}
    (hx : x ∈ inner) : ∃ depth, t.Beneath id (1 + depth) x := by
  obtain ⟨c, hc, depth, hbeneath⟩ := h.exists_beneath hx
  exact ⟨depth, .of_child hs (List.mem_reverse.mp hc) hbeneath⟩

end RightToLeft

namespace Linked

/-- The last step of a way down goes from the parent. -/
theorem parent_of_beneath (h : t.Linked) {top depth x : Nat} (hx : t.Beneath top (depth + 1) x) :
    ∃ p, t.parent? x = some p ∧ t.Beneath top depth p := by
  cases hx with
  | child hid hs hc => exact ⟨_, h.child _ _ hs _ hc, hid⟩

/-- Ways down of one length that end at one scope start at one scope. -/
theorem top_unique (h : t.Linked) {depth a b x : Nat} (ha : t.Beneath a depth x)
    (hb : t.Beneath b depth x) : a = b := by
  induction depth generalizing x with
  | zero =>
    cases ha
    cases hb
    rfl
  | succ depth ih =>
    obtain ⟨p, hp, ha⟩ := h.parent_of_beneath ha
    obtain ⟨q, hq, hb⟩ := h.parent_of_beneath hb
    cases hp.symm.trans hq
    exact ih ha hb

/-- **A scope stands at one depth beneath the global scope.** -/
theorem depth_unique (h : t.Linked) {m n x : Nat} (hm : t.Beneath rootId m x)
    (hn : t.Beneath rootId n x) : m = n := by
  -- Only the global scope is at depth 0, for it has no parent.
  have hzero : ∀ {k}, t.Beneath rootId (k + 1) rootId → False := by
    intro k hk
    obtain ⟨p, hp, _⟩ := h.parent_of_beneath hk
    rw [h.root] at hp
    cases hp
  induction m generalizing n x with
  | zero =>
    cases hm
    cases n with
    | zero => rfl
    | succ n => exact (hzero hn).elim
  | succ m ih =>
    cases n with
    | zero =>
      cases hn
      exact (hzero hm).elim
    | succ n =>
      obtain ⟨p, hp, hm⟩ := h.parent_of_beneath hm
      obtain ⟨q, hq, hn⟩ := h.parent_of_beneath hn
      cases hp.symm.trans hq
      rw [ih hm hn]

/-- Two scopes at one depth with a scope beneath both are the same. -/
theorem eq_of_beneath (h : t.Linked) {k m n a b x : Nat} (ha : t.Beneath rootId k a)
    (hb : t.Beneath rootId k b) (hax : t.Beneath a m x) (hbx : t.Beneath b n x) : a = b := by
  have hdepth := h.depth_unique (ha.trans hax) (hb.trans hbx)
  have hmn : m = n := Nat.add_left_cancel hdepth
  subst hmn
  exact h.top_unique hax hbx

theorem lt_size_of_beneath (h : t.Linked) {depth x : Nat} (hx : t.Beneath rootId depth x) :
    x < t.size := by
  cases hx with
  | refl => exact h.pos
  | child _ hs hc =>
    have hparent := h.child _ _ hs _ hc
    obtain ⟨s, hs, _⟩ := Option.bind_eq_some_iff.mp hparent
    exact lt_size hs

/-! ### Ways down end -/

/-- The way down to a scope goes through different scopes. -/
theorem exists_way (h : t.Linked) {depth x : Nat} (hx : t.Beneath rootId depth x) :
    ∃ way : List Nat, way.length = depth + 1 ∧ way.Nodup ∧
      ∀ y ∈ way, ∃ k ≤ depth, t.Beneath rootId k y := by
  induction hx with
  | refl =>
    refine ⟨[rootId], rfl, List.nodup_singleton _, fun y hy => ?_⟩
    rw [List.mem_singleton.mp hy]
    exact ⟨0, Nat.le_refl _, .refl⟩
  | @child depth id c s hid hs hc ih =>
    obtain ⟨way, hlength, hnodup, hway⟩ := ih
    have hbeneath : t.Beneath rootId (depth + 1) c := .child hid hs hc
    have hnew : c ∉ way := by
      intro hmem
      obtain ⟨k, hk, hat⟩ := hway c hmem
      have hsame := h.depth_unique hat hbeneath
      omega
    refine ⟨c :: way, by rw [List.length_cons, hlength], List.nodup_cons.mpr ⟨hnew, hnodup⟩,
      fun y hy => ?_⟩
    rcases List.mem_cons.mp hy with rfl | hy
    · exact ⟨depth + 1, Nat.le_refl _, hbeneath⟩
    · obtain ⟨k, hk, hat⟩ := hway y hy
      exact ⟨k, Nat.le_succ_of_le hk, hat⟩

/-- **No way down is longer than there are scopes.** -/
theorem depth_lt (h : t.Linked) {depth x : Nat} (hx : t.Beneath rootId depth x) :
    depth < t.size := by
  obtain ⟨way, hlength, hnodup, hway⟩ := h.exists_way hx
  have hsub : way ⊆ List.range t.size := by
    intro y hy
    obtain ⟨k, _, hat⟩ := hway y hy
    exact List.mem_range.mpr (h.lt_size_of_beneath hat)
  have hle := (List.subperm_of_subset hnodup hsub).length_le
  rw [hlength, List.length_range] at hle
  exact hle

/-- Beneath every scope there are finitely many, as many as `extent` counts. -/
theorem exists_met (h : t.Linked) : ∀ (depth : Nat) {k id : Nat}, t.Beneath rootId k id →
    t.size ≤ k + depth → ∃ met, t.RightToLeft [id] met ∧ met.length = t.extent depth id
  | 0, _, _, hid, hdepth => absurd (h.depth_lt hid) (Nat.not_lt.mpr hdepth)
  | depth + 1, k, id, hid, hdepth => by
      obtain ⟨s, hs⟩ := scope?_isSome (h.lt_size_of_beneath hid)
      have hchildren : ∀ children : List Nat, (∀ c ∈ children, c ∈ s.children) →
          ∃ inner, t.RightToLeft children.reverse inner ∧
            children.foldr (fun c n => t.extent depth c + n) 1 = inner.length + 1 := by
        intro children
        induction children with
        | nil => exact fun _ => ⟨[], .nil, rfl⟩
        | cons c rest ih =>
          intro hmem
          have hc : t.Beneath rootId (k + 1) c := .child hid hs (hmem c (List.mem_cons_self ..))
          obtain ⟨own, hown, hlength⟩ := h.exists_met depth hc (by omega)
          obtain ⟨inner, hinner, hsum⟩ := ih fun c hc => hmem c (List.mem_cons_of_mem _ hc)
          refine ⟨inner ++ own, ?_, ?_⟩
          · rw [List.reverse_cons]
            exact hinner.append hown
          · rw [List.foldr_cons, hsum, List.length_append, hlength]
            omega
      obtain ⟨inner, hinner, hsum⟩ := hchildren s.children fun _ hc => hc
      refine ⟨id :: (inner ++ []), .cons hs hinner .nil, ?_⟩
      rw [extent, hs, List.length_cons, List.append_nil]
      exact hsum.symm

/-- **Everything beneath the global scope is inspected**, without fault. -/
theorem exists_rightToLeft (h : t.Linked) :
    ∃ ids, t.RightToLeft [rootId] ids ∧ t.inspectionOrder = .ok ids := by
  obtain ⟨ids, hids, hlength⟩ := h.exists_met t.size Beneath.refl (Nat.le_add_left ..)
  exact ⟨ids, hids, inspectFrom_eq_ok_iff.mpr ⟨hids, Nat.le_of_eq hlength⟩⟩

/-! ### Meeting a scope twice -/

/-- Different scopes at one depth, and what lies beneath them, are met once, where every
children list names its children once. -/
theorem nodup_of_children (h : t.Linked) {ids met : List ScopeId} (hmet : t.RightToLeft ids met)
    (hids : ids.Nodup) {k : Nat} (hlevel : ∀ a ∈ ids, t.Beneath rootId k a)
    (honce : ∀ id ∈ met, ∀ s, t.scope? id = some s → s.children.Nodup) : met.Nodup := by
  induction hmet generalizing k with
  | nil => exact List.nodup_nil
  | @cons id s rest inner after hs hinner hafter ihinner ihafter =>
    obtain ⟨hnot, hrest⟩ := List.nodup_cons.mp hids
    have hid := hlevel id (List.mem_cons_self ..)
    have hlevelRest : ∀ a ∈ rest, t.Beneath rootId k a := fun a ha =>
      hlevel a (List.mem_cons_of_mem _ ha)
    -- What lies beneath the first scope does not lie beneath another one of its depth.
    have hfirst : ∀ x ∈ id :: inner, ∃ depth, t.Beneath id depth x := by
      intro x hx
      rcases List.mem_cons.mp hx with rfl | hx
      · exact ⟨0, .refl⟩
      · obtain ⟨depth, hbeneath⟩ := hinner.exists_beneath_inner hs hx
        exact ⟨1 + depth, hbeneath⟩
    have hapart : ∀ x ∈ id :: inner, x ∉ after := by
      intro x hx hxafter
      obtain ⟨m, hidx⟩ := hfirst x hx
      obtain ⟨b, hb, n, hbx⟩ := hafter.exists_beneath hxafter
      exact hnot (h.eq_of_beneath hid (hlevelRest b hb) hidx hbx ▸ hb)
    have hself : id ∉ inner := by
      intro hx
      obtain ⟨depth, hround⟩ := hinner.exists_beneath_inner hs hx
      have hsame := h.depth_unique hid (hid.trans hround)
      omega
    have hmem : ∀ x ∈ inner, x ∈ id :: (inner ++ after) := fun x hx =>
      List.mem_cons_of_mem _ (List.mem_append_left _ hx)
    have hmem' : ∀ x ∈ after, x ∈ id :: (inner ++ after) := fun x hx =>
      List.mem_cons_of_mem _ (List.mem_append_right _ hx)
    have hbeneath : ∀ c ∈ s.children.reverse, t.Beneath rootId (k + 1) c := fun c hc =>
      .child hid hs (List.mem_reverse.mp hc)
    have hchildren : s.children.reverse.Nodup :=
      List.nodup_reverse.mpr (honce id (List.mem_cons_self ..) s hs)
    have hnodupInner := ihinner hchildren hbeneath fun x hx => honce x (hmem x hx)
    have hnodupAfter := ihafter hrest hlevelRest fun x hx => honce x (hmem' x hx)
    rw [← List.cons_append]
    exact List.nodup_append.mpr ⟨List.nodup_cons.mpr ⟨hself, hnodupInner⟩, hnodupAfter,
      fun x hx y hy he => hapart x hx (he ▸ hy)⟩

/-- **A scope is met twice just when some children list names a child twice.** -/
theorem nodup_iff (h : t.Linked) {ids : List ScopeId} (hids : t.RightToLeft [rootId] ids) :
    ids.Nodup ↔ ∀ id ∈ ids, ∀ s, t.scope? id = some s → s.children.Nodup := by
  constructor
  · intro hnodup id hid s hs
    obtain ⟨s', inner, hs', hinner, hsub⟩ := hids.exists_inner hid
    cases hs.symm.trans hs'
    -- The children are met in order among what is inside the scope.
    exact List.nodup_reverse.mp ((hinner.sublist.trans hsub).nodup hnodup)
  · intro honce
    have hroot : ∀ a ∈ [rootId], t.Beneath rootId 0 a := by
      intro a ha
      rw [List.mem_singleton.mp ha]
      exact .refl
    exact h.nodup_of_children hids (List.nodup_singleton _) hroot honce

/-- A scope that is its own parent is never met. -/
theorem not_mem_of_own_parent (h : t.Linked) {ids : List ScopeId}
    (hids : t.RightToLeft [rootId] ids) {id : Nat} (hown : t.parent? id = some id) : id ∉ ids := by
  intro hmem
  obtain ⟨a, ha, depth, hbeneath⟩ := hids.exists_beneath hmem
  rw [List.mem_singleton.mp ha] at hbeneath
  cases depth with
  | zero =>
    cases hbeneath
    rw [h.root] at hown
    cases hown
  | succ depth =>
    obtain ⟨p, hp, houter⟩ := h.parent_of_beneath hbeneath
    cases hown.symm.trans hp
    exact Nat.succ_ne_self depth (h.depth_unique hbeneath houter)

/-! ### Operations keep arenas linked -/

theorem update (h : t.Linked) {f : Scope → Scope} (hf : Mild f) (id : Nat) :
    (t.update id f).Linked where
  pos := by
    rw [size_update]
    exact h.pos
  id_eq := by
    intro i s hs
    obtain ⟨s₀, hs₀, rfl | rfl⟩ := scope?_update_cases hs
    · exact h.id_eq i _ hs₀
    · rw [hf.id]
      exact h.id_eq i s₀ hs₀
  root := (parent?_update hf.parent _).trans h.root
  child := by
    intro i s hs c hc
    rw [parent?_update hf.parent]
    obtain ⟨s₀, hs₀, rfl | rfl⟩ := scope?_update_cases hs
    · exact h.child i _ hs₀ c hc
    · rw [hf.children] at hc
      exact h.child i s₀ hs₀ c hc

/-- A scope may be opened in any scope, be it in itself. -/
theorem add (h : t.Linked) (parent : Nat) (kind : ScopeKind) (span : Span) :
    (t.add parent kind span).Linked where
  pos := by
    rw [size_add]
    exact Nat.succ_pos _
  id_eq := by
    intro i s hs
    rw [scope?_add_eq] at hs
    obtain ⟨s₀, hs₀, rfl⟩ := Option.map_eq_some_iff.mp hs
    have hid : s₀.id = i := by
      split at hs₀
      · rename_i hi
        rw [← Option.some.inj hs₀, hi]
        rfl
      · exact h.id_eq i s₀ hs₀
    split <;> exact hid
  root := by
    have hne : rootId ≠ t.size := Nat.ne_of_lt h.pos
    rw [parent?_add, if_neg hne]
    exact h.root
  child := by
    intro i s hs c hc
    rw [scope?_add_eq] at hs
    obtain ⟨s₀, hs₀, rfl⟩ := Option.map_eq_some_iff.mp hs
    rw [parent?_add]
    have hold : c ∈ s₀.children → t.parent? c = some i := by
      intro hc
      split at hs₀
      · rw [← Option.some.inj hs₀] at hc
        exact absurd hc List.not_mem_nil
      · exact h.child i s₀ hs₀ c hc
    have hlt : c ∈ s₀.children → c ≠ t.size := by
      intro hc he
      obtain ⟨s, hs, _⟩ := Option.bind_eq_some_iff.mp (hold hc)
      exact Nat.ne_of_lt (lt_size hs) he
    by_cases hp : parent = i
    · rw [if_pos hp] at hc
      rcases List.mem_append.mp hc with hc | hc
      · rw [if_neg (hlt hc)]
        exact hold hc
      · rw [if_pos (List.mem_singleton.mp hc), hp]
    · rw [if_neg hp] at hc
      rw [if_neg (hlt hc)]
      exact hold hc

end Linked

/-! ### Validation -/

/-- **What validation checks**: children name their parent, and bindings are in use and
hold references of their scope. -/
theorem validate_eq_ok_iff : t.validate = .ok () ↔ ∀ s ∈ t.scopes,
    (∀ c ∈ s.children, t.parent? c = some s.id) ∧
      ∀ b ∈ s.bindings, bindingMalformation? s b = none := by
  have hchild : ∀ (s : Scope) (c : Nat),
      t.childMalformation? s c = none ↔ t.parent? c = some s.id := by
    intro s c
    show (if t.parent? c = some s.id then none else some _) = none ↔ _
    by_cases hp : t.parent? c = some s.id <;> simp [hp]
  have hscope : ∀ s : Scope, t.malformation? s = none ↔
      (∀ c ∈ s.children, t.parent? c = some s.id) ∧
        ∀ b ∈ s.bindings, bindingMalformation? s b = none := by
    intro s
    simp only [malformation?, Option.orElse_eq_orElse, Option.orElse_eq_or, Option.or_eq_none_iff,
      List.findSome?_eq_none_iff, hchild]
  have hall : (∀ s ∈ t.scopes, t.malformation? s = none) ↔
      t.scopes.findSome? (fun s => (t.malformation? s).map (s.id, ·)) = none := by
    simp only [List.findSome?_eq_none_iff, Option.map_eq_none_iff]
  simp only [← hscope]
  rw [hall, validate]
  cases t.scopes.findSome? fun s => (t.malformation? s).map (s.id, ·) with
  | none => simp
  | some first => simp

/-- **Validation is enough for an arena to be linked**, if ids are places. -/
theorem linked_of_validate (hids : ∀ (i : Nat) s, t.scope? i = some s → s.id = i)
    (hroot : ∃ s, t.scope? rootId = some s ∧ s.parent = none) (hvalid : t.validate = .ok ()) :
    t.Linked where
  pos := by
    obtain ⟨s, hs, _⟩ := hroot
    exact lt_size hs
  id_eq := hids
  root := by
    obtain ⟨s, hs, hparent⟩ := hroot
    rw [parent?_of_scope hs, hparent]
  child := by
    intro i s hs c hc
    have hparent := (validate_eq_ok_iff.mp hvalid s (List.mem_of_getElem? hs)).1 c hc
    rw [hids i s hs] at hparent
    exact hparent

end ScopeTree

end ScopeLint
