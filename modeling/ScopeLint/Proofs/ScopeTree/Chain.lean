import ScopeLint.Proofs.ScopeTree.Lookup

/-! # The chain of scopes around a scope

A tree is **formed** (`ScopeTree.Formed`) when its scopes are numbered by place,
each scope but the global one has a parent of smaller id, and children are
exactly the scopes that name a parent, in order.  Then going from a scope to its
parent, again and again, ends at the global scope: the scopes met are the
**chain** of the scope (`ScopeTree.chain`).  Opening a scope adds to no chain but
its own, and no other operation changes a chain.
-/

namespace ScopeLint

namespace ScopeTree

/-- **What every tree built scope by scope keeps.** -/
structure Formed (t : ScopeTree) : Prop where
  pos : 0 < t.size
  id_eq : ∀ (i : Nat) s, t.scope? i = some s → s.id = i
  parent_lt : ∀ i p : Nat, t.parent? i = some p → p < i
  inner : ∀ i : Nat, 0 < i → i < t.size → ∃ p : Nat, t.parent? i = some p
  children_eq : ∀ (i : Nat) s, t.scope? i = some s →
    s.children = (List.range t.size).filter fun j => t.parent? j = some i
  names_nodup : ∀ (i : Nat) s, t.scope? i = some s → s.names.Nodup

/-- The scopes met from a scope on by going to the parent, `fuel` at most. -/
def chainWithin (t : ScopeTree) : Nat → ScopeId → List ScopeId
  | 0, _ => []
  | fuel + 1, id =>
    id ::
      match t.parent? id with
      | some parent => t.chainWithin fuel parent
      | none => []

/-- **The chain of a scope**: the scope, its parent, and so on up to the global
scope. -/
def chain (t : ScopeTree) (id : Nat) : List ScopeId := t.chainWithin t.size id

/-- **The home of a reference**: the nearest scope, from the one it stands in
outwards, that declares its name. -/
def home? (t : ScopeTree) (r : Reference) : Option ScopeId :=
  (t.chain r.origin).find? (t.declares · r.name)

/-- Whether declarations by `var` stop at a scope. -/
def stopsVar (t : ScopeTree) (id : Nat) : Bool :=
  (t.scope? id).any fun s => s.kind.isVariableScope || s.parent.isNone

/-! ### Ids of a formed tree -/

theorem Formed.ids {t : ScopeTree} (h : t.Formed) : t.scopes.map (·.id) = List.range t.size := by
  apply List.ext_getElem?
  intro i
  rw [List.getElem?_map]
  rcases Nat.lt_or_ge i t.size with hlt | hge
  · obtain ⟨s, hs⟩ := scope?_isSome hlt
    rw [show t.scopes[i]? = some s from hs, Option.map_some, h.id_eq i s hs,
      List.getElem?_range hlt]
  · rw [show t.scopes[i]? = none from scope?_none hge, Option.map_none,
      List.getElem?_eq_none (by rw [List.length_range]; exact hge)]

theorem Formed.scope?_of_mem {t : ScopeTree} (h : t.Formed) {s : Scope} (hs : s ∈ t.scopes) :
    t.scope? s.id = some s := by
  obtain ⟨i, hi⟩ := List.mem_iff_getElem?.mp hs
  have hid : s.id = i := h.id_eq i s hi
  rw [hid]
  exact hi

/-- The global scope stands in no scope. -/
theorem Formed.parent?_root {t : ScopeTree} (h : t.Formed) : t.parent? rootId = none := by
  refine Option.eq_none_iff_forall_ne_some.mpr fun p hp => ?_
  exact Nat.not_lt_zero _ (h.parent_lt _ _ hp)

/-! ### Chains of a formed tree -/

theorem Formed.chainWithin_eq {t : ScopeTree} (h : t.Formed) :
    ∀ m n id : Nat, id < m → id < n → t.chainWithin m id = t.chainWithin n id
  | 0, _, _, hm, _ => absurd hm (Nat.not_lt_zero _)
  | _ + 1, 0, _, _, hn => absurd hn (Nat.not_lt_zero _)
  | m + 1, n + 1, id, hm, hn => by
      unfold chainWithin
      cases hp : t.parent? id with
      | none => rfl
      | some p =>
        have hlt := h.parent_lt id p hp
        exact congrArg (id :: ·) (h.chainWithin_eq m n p (by omega) (by omega))

theorem Formed.chain_eq {t : ScopeTree} (h : t.Formed) {id : Nat} (hid : id < t.size) :
    t.chain id =
      id ::
        match t.parent? id with
        | some parent => t.chain parent
        | none => [] := by
  obtain ⟨n, hn⟩ : ∃ n, t.size = n + 1 := ⟨t.size - 1, by omega⟩
  have hunfold : t.chain id = t.chainWithin (n + 1) id := by rw [chain, hn]
  rw [hunfold, chainWithin]
  cases hp : t.parent? id with
  | none => rfl
  | some p =>
    have hlt := h.parent_lt id p hp
    exact congrArg (id :: ·) (h.chainWithin_eq n t.size p (by omega) (by omega))

theorem Formed.chain_some {t : ScopeTree} (h : t.Formed) {id parent : Nat}
    (hid : id < t.size) (hp : t.parent? id = some parent) :
    t.chain id = id :: t.chain parent := by
  rw [h.chain_eq hid, hp]

theorem Formed.chain_none {t : ScopeTree} (h : t.Formed) {id : Nat}
    (hid : id < t.size) (hp : t.parent? id = none) : t.chain id = [id] := by
  rw [h.chain_eq hid, hp]

theorem Formed.mem_chain_self {t : ScopeTree} (h : t.Formed) {id : Nat} (hid : id < t.size) :
    id ∈ t.chain id := by
  rw [h.chain_eq hid]
  exact List.mem_cons_self ..

/-- A chain goes to ever smaller ids, so it never meets a scope twice. -/
theorem Formed.chain_decreasing {t : ScopeTree} (h : t.Formed) {id : Nat} (hid : id < t.size) :
    (t.chain id).Pairwise (fun a b : Nat => b < a) ∧
      ∀ i : Nat, i ∈ t.chain id → i ≤ id := by
  induction id using Nat.strongRecOn with
  | ind id ih =>
    cases hp : t.parent? id with
    | none => rw [h.chain_none hid hp]; simp
    | some p =>
      have hlt := h.parent_lt id p hp
      obtain ⟨hpair, hle⟩ := ih p hlt (by omega)
      rw [h.chain_some hid hp]
      refine ⟨List.pairwise_cons.mpr ⟨fun i hi => ?_, hpair⟩, fun i hi => ?_⟩
      · have := hle i hi; omega
      · rcases List.mem_cons.mp hi with rfl | hi
        · exact Nat.le_refl _
        · have := hle i hi; omega

theorem Formed.le_of_mem_chain {t : ScopeTree} (h : t.Formed) {id i : Nat}
    (hid : id < t.size) (hi : i ∈ t.chain id) : i ≤ id :=
  (h.chain_decreasing hid).2 i hi

/-- The chain of a scope on a chain is the rest of that chain. -/
theorem Formed.chain_suffix {t : ScopeTree} (h : t.Formed) {id i : Nat} (hid : id < t.size)
    (hi : i ∈ t.chain id) : ∃ inner, t.chain id = inner ++ t.chain i := by
  induction id using Nat.strongRecOn with
  | ind id ih =>
    by_cases he : i = id
    · exact ⟨[], by rw [he]; rfl⟩
    · cases hp : t.parent? id with
      | none =>
        rw [h.chain_none hid hp, List.mem_singleton] at hi
        exact absurd hi he
      | some p =>
        have hlt := h.parent_lt id p hp
        rw [h.chain_some hid hp] at hi ⊢
        obtain ⟨inner, hinner⟩ := ih p hlt (by omega) ((List.mem_cons.mp hi).resolve_left he)
        exact ⟨id :: inner, by rw [hinner]; rfl⟩

theorem Formed.mem_chain_trans {t : ScopeTree} (h : t.Formed) {a b c : Nat}
    (ha : a < t.size) (hb : b ∈ t.chain a) (hc : c ∈ t.chain b) : c ∈ t.chain a := by
  obtain ⟨inner, hinner⟩ := h.chain_suffix ha hb
  rw [hinner]
  exact List.mem_append_right _ hc

/-- Every chain ends at the global scope. -/
theorem Formed.root_mem_chain {t : ScopeTree} (h : t.Formed) {id : Nat}
    (hid : id < t.size) : rootId ∈ t.chain id := by
  induction id using Nat.strongRecOn with
  | ind id ih =>
    by_cases h0 : id = 0
    · subst h0; exact h.mem_chain_self hid
    · obtain ⟨p, hp⟩ := h.inner id (by omega) hid
      have hlt := h.parent_lt id p hp
      rw [h.chain_some hid hp]
      exact List.mem_cons_of_mem _ (ih p hlt (by omega))

theorem Formed.chain_root {t : ScopeTree} (h : t.Formed) : t.chain rootId = [rootId] :=
  h.chain_none h.pos h.parent?_root

/-- Of two scopes on a chain, the one of smaller id lies around the other. -/
theorem Formed.mem_chain_of_le {t : ScopeTree} (h : t.Formed) {id i j : Nat} (hid : id < t.size)
    (hi : i ∈ t.chain id) (hj : j ∈ t.chain id) (hle : i ≤ j) : i ∈ t.chain j := by
  obtain ⟨inner, hinner⟩ := h.chain_suffix hid hj
  have hpair := (h.chain_decreasing hid).1
  rw [hinner] at hi hpair
  rcases List.mem_append.mp hi with hi | hi
  · have hjlt : j < t.size := Nat.lt_of_le_of_lt (h.le_of_mem_chain hid hj) hid
    have hlt : j < i := (List.pairwise_append.mp hpair).2.2 i hi j (h.mem_chain_self hjlt)
    omega
  · exact hi

/-- The nearest scope on a chain with a property is the one of greatest id. -/
theorem Formed.find?_chain_iff {t : ScopeTree} (h : t.Formed) {id i : Nat} (hid : id < t.size)
    (p : Nat → Bool) :
    (t.chain id).find? p = some i ↔
      i ∈ t.chain id ∧ p i = true ∧ ∀ j : Nat, j ∈ t.chain id → i < j → p j = false := by
  have hpair := (h.chain_decreasing hid).1
  constructor
  · intro hfind
    obtain ⟨hp, inner, outer, heq, hinner⟩ := List.find?_eq_some_iff_append.mp hfind
    refine ⟨List.mem_of_find?_eq_some hfind, hp, fun j hj hlt => ?_⟩
    rw [heq] at hj hpair
    rcases List.mem_append.mp hj with hj | hj
    · simpa using hinner j hj
    · rcases List.mem_cons.mp hj with rfl | hj
      · exact absurd hlt (Nat.lt_irrefl _)
      · have hgt := (List.pairwise_cons.mp (List.pairwise_append.mp hpair).2.1).1 j hj
        omega
  · rintro ⟨hmem, hp, hnot⟩
    obtain ⟨inner, outer, heq⟩ := List.mem_iff_append.mp hmem
    refine List.find?_eq_some_iff_append.mpr ⟨hp, inner, outer, heq, fun j hj => ?_⟩
    rw [heq] at hpair
    have hlt := (List.pairwise_append.mp hpair).2.2 j hj i (List.mem_cons_self ..)
    have hjmem : j ∈ t.chain id := by rw [heq]; exact List.mem_append_left _ hj
    rw [hnot j hjmem hlt]
    rfl

/-- Two formed trees with the same parents up to some size have the same chains
up to there. -/
theorem Formed.chain_congr {t t' : ScopeTree} (h : t.Formed) (h' : t'.Formed)
    (hsize : t.size ≤ t'.size)
    (hagree : ∀ i : Nat, i < t.size → t'.parent? i = t.parent? i) {id : Nat}
    (hid : id < t.size) : t'.chain id = t.chain id := by
  induction id using Nat.strongRecOn with
  | ind id ih =>
    rw [h.chain_eq hid, h'.chain_eq (by omega), hagree id hid]
    cases hp : t.parent? id with
    | none => rfl
    | some p =>
      have hlt := h.parent_lt id p hp
      exact congrArg (id :: ·) (ih p hlt (by omega))

/-- With enough fuel the search for a variable scope goes along the chain. -/
theorem Formed.variableScopeWithin?_eq {t : ScopeTree} (h : t.Formed) {fuel id : Nat}
    (hfuel : id < fuel) (hid : id < t.size) :
    t.variableScopeWithin? fuel id = (t.chain id).find? t.stopsVar := by
  induction fuel generalizing id with
  | zero => exact absurd hfuel (Nat.not_lt_zero _)
  | succ fuel ih =>
    obtain ⟨s, hs⟩ := scope?_isSome hid
    have hp := parent?_of_scope hs
    rw [h.chain_eq hid, List.find?_cons, hp]
    unfold variableScopeWithin?
    simp only [hs, Option.bind_eq_bind, Option.bind_some, stopsVar, Option.any_some]
    cases hk : s.kind.isVariableScope with
    | true => simp
    | false =>
      cases hsp : s.parent with
      | none => simp
      | some p =>
        have hplt := h.parent_lt id p (hp.trans hsp)
        simpa using @ih p (by omega) (by omega)

/-- **Declarations by `var` go to the nearest scope on the chain that stops
them.** -/
theorem Formed.variableScope?_eq {t : ScopeTree} (h : t.Formed) {id : Nat}
    (hid : id < t.size) : t.variableScope? id = (t.chain id).find? t.stopsVar :=
  h.variableScopeWithin?_eq hid hid

/-- A declaration by `var` always has a scope to go to. -/
theorem Formed.variableScope?_mem {t : ScopeTree} (h : t.Formed) {id : Nat}
    (hid : id < t.size) : ∃ v : Nat, t.variableScope? id = some v ∧ v ∈ t.chain id := by
  rw [h.variableScope?_eq hid]
  have hroot : t.stopsVar rootId = true := by
    obtain ⟨s, hs⟩ := scope?_isSome h.pos
    have hnone : s.parent = none := by
      rw [← parent?_of_scope hs]
      exact h.parent?_root
    simp [stopsVar, rootId, hs, hnone]
  obtain ⟨v, hv⟩ := Option.isSome_iff_exists.mp
    (List.find?_isSome.mpr ⟨rootId, h.root_mem_chain hid, hroot⟩)
  exact ⟨v, hv, List.mem_of_find?_eq_some hv⟩

/-! ### Operations keep trees formed -/

/-- What an update may do to a scope: it keeps the scope's place, parent and
children, and never declares a name twice. -/
structure Mild (f : Scope → Scope) : Prop where
  id : ∀ s, (f s).id = s.id
  parent : ∀ s, (f s).parent = s.parent
  children : ∀ s, (f s).children = s.children
  names : ∀ s, s.names.Nodup → (f s).names.Nodup

theorem Mild.define (d : Definition) : Mild (·.define d) :=
  ⟨fun _ => rfl, fun _ => rfl, fun _ => rfl, fun _ h => Scope.nodup_names_define h d⟩

theorem Formed.update {t : ScopeTree} (h : t.Formed) {f : Scope → Scope} (hf : Mild f)
    (id : Nat) : (t.update id f).Formed := by
  have hparent : ∀ i : Nat, (t.update id f).parent? i = t.parent? i := parent?_update hf.parent
  constructor
  case pos =>
    rw [size_update]
    exact h.pos
  case id_eq =>
    intro i s hs
    obtain ⟨s₀, hs₀, rfl | rfl⟩ := scope?_update_cases hs
    · exact h.id_eq i _ hs₀
    · rw [hf.id]; exact h.id_eq i _ hs₀
  case parent_lt =>
    intro i p hp
    rw [hparent] at hp
    exact h.parent_lt i p hp
  case inner =>
    intro i hpos hi
    rw [size_update] at hi
    rw [hparent]
    exact h.inner i hpos hi
  case children_eq =>
    intro i s hs
    simp only [size_update, hparent]
    obtain ⟨s₀, hs₀, rfl | rfl⟩ := scope?_update_cases hs
    · exact h.children_eq i _ hs₀
    · rw [hf.children]; exact h.children_eq i _ hs₀
  case names_nodup =>
    intro i s hs
    obtain ⟨s₀, hs₀, rfl | rfl⟩ := scope?_update_cases hs
    · exact h.names_nodup i _ hs₀
    · exact hf.names _ (h.names_nodup i _ hs₀)

theorem Formed.chain_update {t : ScopeTree} (h : t.Formed) {f : Scope → Scope} (hf : Mild f)
    (id : Nat) {i : Nat} (hi : i < t.size) : (t.update id f).chain i = t.chain i :=
  h.chain_congr (h.update hf id) (Nat.le_of_eq (size_update t id f).symm)
    (fun j _ => parent?_update hf.parent j) hi

/-- The scope of an id is the new one, or an old one that may have adopted it. -/
theorem scope?_add_cases {t : ScopeTree} {parent : Nat} (hp : parent < t.size) (kind : ScopeKind)
    (span : Span) (i : Nat) (s : Scope) (hs : (t.add parent kind span).scope? i = some s) :
    (i = t.size ∧ s = Scope.empty t.size kind (some parent) span) ∨
      ∃ s₀, i < t.size ∧ t.scope? i = some s₀ ∧
        s = if parent = i then s₀.adopt t.size else s₀ := by
  rw [scope?_add hp] at hs
  by_cases hi : i = t.size
  · rw [if_pos hi] at hs
    exact Or.inl ⟨hi, (Option.some.inj hs).symm⟩
  · rw [if_neg hi] at hs
    obtain ⟨s₀, hs₀, rfl⟩ := Option.map_eq_some_iff.mp hs
    exact Or.inr ⟨s₀, lt_size hs₀, hs₀, rfl⟩

/-- Among the old ids parents are as before; the new id names its parent. -/
theorem childIds_add (t : ScopeTree) (parent : Nat) (kind : ScopeKind) (span : Span) (i : Nat) :
    ((List.range (t.size + 1)).filter fun j => (t.add parent kind span).parent? j = some i) =
      ((List.range t.size).filter fun j => t.parent? j = some i) ++
        if parent = i then [t.size] else [] := by
  have hparent := parent?_add t parent kind span
  rw [List.range_succ, List.filter_append]
  congr 1
  · refine List.filter_congr fun j hj => ?_
    rw [hparent, if_neg (Nat.ne_of_lt (List.mem_range.mp hj))]
  · rw [List.filter_cons, List.filter_nil, hparent, if_pos rfl]
    by_cases he : parent = i <;> simp [he]

theorem Formed.add {t : ScopeTree} (h : t.Formed) {parent : Nat} (hp : parent < t.size)
    (kind : ScopeKind) (span : Span) : (t.add parent kind span).Formed := by
  have hparent := parent?_add t parent kind span
  have hold := fun (i : Nat) s => scope?_add_cases hp kind span i s
  constructor
  case pos =>
    rw [size_add]
    omega
  case id_eq =>
    intro i s hs
    rcases hold i s hs with ⟨rfl, rfl⟩ | ⟨s₀, _, hs₀, rfl⟩
    · rfl
    · have hid : s₀.id = i := h.id_eq i s₀ hs₀
      split <;> exact hid
  case parent_lt =>
    intro i p hpi
    rw [hparent] at hpi
    split at hpi
    · rename_i hi
      rw [← Option.some.inj hpi, hi]; exact hp
    · exact h.parent_lt i p hpi
  case inner =>
    intro i hpos hi
    rw [size_add] at hi
    rw [hparent]
    by_cases he : i = t.size
    · exact ⟨parent, if_pos he⟩
    · rw [if_neg he]; exact h.inner i hpos (by omega)
  case children_eq =>
    intro i s hs
    rw [size_add, childIds_add t parent kind span]
    rcases hold i s hs with ⟨rfl, rfl⟩ | ⟨s₀, _, hs₀, rfl⟩
    · have hnone : (List.range t.size).filter (fun j => t.parent? j = some t.size) = [] := by
        refine List.filter_eq_nil_iff.mpr fun j hj he => ?_
        have h1 := h.parent_lt j _ (of_decide_eq_true he)
        have h2 := List.mem_range.mp hj
        omega
      rw [hnone, if_neg (Nat.ne_of_lt hp)]
      rfl
    · rw [← h.children_eq i s₀ hs₀]
      by_cases he : parent = i <;> simp [he, Scope.adopt]
  case names_nodup =>
    intro i s hs
    rcases hold i s hs with ⟨rfl, rfl⟩ | ⟨s₀, _, hs₀, rfl⟩
    · exact List.nodup_nil
    · have hnames : s₀.names.Nodup := h.names_nodup i s₀ hs₀
      split <;> exact hnames

theorem Formed.chain_add {t : ScopeTree} (h : t.Formed) {parent : Nat} (hp : parent < t.size)
    (kind : ScopeKind) (span : Span) {i : Nat} (hi : i < t.size) :
    (t.add parent kind span).chain i = t.chain i := by
  refine h.chain_congr (h.add hp kind span) (by rw [size_add]; omega) (fun j hj => ?_) hi
  rw [parent?_add, if_neg (Nat.ne_of_lt hj)]

theorem Formed.chain_add_new {t : ScopeTree} (h : t.Formed) {parent : Nat}
    (hp : parent < t.size) (kind : ScopeKind) (span : Span) :
    (t.add parent kind span).chain t.size = t.size :: t.chain parent := by
  rw [(h.add hp kind span).chain_some (by rw [size_add]; omega)
    (by rw [parent?_add, if_pos rfl]), h.chain_add hp kind span hp]

/-- The tree of the global scope alone is formed. -/
theorem formed_ofSpan (span : Span) : (ofSpan span).Formed := by
  have hscope : ∀ i s, (ofSpan span).scope? i = some s →
      i = 0 ∧ s = Scope.empty rootId .global none span := by
    intro i s hs
    cases i with
    | zero => exact ⟨rfl, (Option.some.inj hs).symm⟩
    | succ i => cases hs
  have hparent : ∀ i, (ofSpan span).parent? i = none := by
    intro i
    cases i <;> rfl
  constructor
  case pos =>
    exact Nat.one_pos
  case id_eq =>
    intro i s hs
    obtain ⟨rfl, rfl⟩ := hscope i s hs
    rfl
  case parent_lt =>
    intro i p hp
    rw [hparent] at hp
    cases hp
  case inner =>
    intro i hpos hi
    have hsize : (ofSpan span).size = 1 := rfl
    omega
  case children_eq =>
    intro i s hs
    obtain ⟨rfl, rfl⟩ := hscope i s hs
    simp [hparent, Scope.empty]
  case names_nodup =>
    intro i s hs
    obtain ⟨rfl, rfl⟩ := hscope i s hs
    exact List.nodup_nil

end ScopeTree

end ScopeLint
