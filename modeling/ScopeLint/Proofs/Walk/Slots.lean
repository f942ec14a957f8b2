import ScopeLint.Proofs.Outline.Declarations
import ScopeLint.Proofs.Walk.Sites

/-! # The slots that names are declared in

Each time a walk meets a declared name it makes a definition, and right behind it the first
value when the name gets one.  Both belong to one **slot** (`Slot`), and the slots of a
program are all there is of definitions and first values (`Program.exists_slots`): its tree
says of each slot whether the name gets a value, and the finished scope tree says who owns
the name.  The other way round, in a tree of the promised shape every name that is declared
has its definition (`Program.exists_definition`).
-/

namespace ScopeLint

open Syntax (Label Identifier Node Program)

/-- **A place that declares a name.** -/
structure Slot where
  /-- The scope that it is written in. -/
  site : ScopeId
  /-- The scope that owns the name. -/
  owner : ScopeId
  definition : Definition
  /-- Whether the name gets a value there. -/
  valued : Bool
  deriving DecidableEq, Repr, Inhabited

namespace Slot

/-- The use by which the name of a slot gets its first value. -/
def firstValue (slot : Slot) : Reference :=
  ⟨slot.definition.name, .write, true, slot.site, none⟩

/-- What is recorded of a slot: the definition, and one first value if there is one. -/
def records (slot : Slot) : List Record :=
  .definition slot.owner slot.definition ::
    if slot.valued then [.reference slot.firstValue] else []

/-- **What a tree says of a slot**: `declares` whether its name gets a value, and the scope
tree who owns it. -/
structure Sound (source : Source) (declares : Label → DefinitionKind → Bool → Prop)
    (t : ScopeTree) (slot : Slot) : Prop where
  declared : ∃ name, declares name slot.definition.kind slot.valued ∧
    slot.definition.name = .ofLabel source name
  site_lt : slot.site < t.size
  owner : t.owner? slot.site slot.definition.kind = some slot.owner

/-- The owner lies around the site. -/
theorem Sound.owner_mem_chain {source : Source}
    {declares : Label → DefinitionKind → Bool → Prop} {t : ScopeTree} {slot : Slot}
    (h : slot.Sound source declares t) (ht : t.Formed) : slot.owner ∈ t.chain slot.site := by
  have howner := h.owner
  unfold ScopeTree.owner? at howner
  split at howner
  · exact List.mem_of_find?_eq_some howner
  · rw [← Option.some.inj howner]
    exact ht.mem_chain_self h.site_lt

end Slot

/-- Whether a record is of a declaration: a definition or a first value. -/
def Record.isDeclaring : Record → Bool
  | definition .. => true
  | reference r => r.init

namespace Walk

variable {source : Source} {declares : Label → DefinitionKind → Bool → Prop} {t : ScopeTree}

namespace Underway

variable {w : Walk} {es : List Entry}

/-- The slot of a name met now. -/
theorem slot_sound (h : Underway source t w es) {name : Label} {kind : DefinitionKind}
    {valued : Bool} (hname : declares name kind valued) :
    Slot.Sound source declares t
      ⟨w.current, w.owner kind, ⟨.ofLabel source name, kind⟩, valued⟩ where
  declared := ⟨name, hname, rfl⟩
  site_lt := Nat.lt_of_lt_of_le h.formed.current_lt h.grows_tree.size_le
  owner := h.owner?_current kind

end Underway

/-- **A walk records definitions and first values slot by slot.** -/
theorem exists_slots {es : List Entry} (hes : Entry.Valued declares es) :
    ∀ {w : Walk}, Underway source t w es → ∃ slots : List Slot,
      (w.records source es).filter Record.isDeclaring = slots.flatMap Slot.records ∧
        ∀ slot ∈ slots, slot.Sound source declares t := by
  induction hes with
  | nil => exact fun _ => ⟨[], rfl, fun slot hslot => absurd hslot List.not_mem_nil⟩
  | @definition name kind rest hname _ ih =>
    intro w h
    obtain ⟨slots, hslots, hsound⟩ := ih h.next
    refine ⟨⟨w.current, w.owner kind, ⟨.ofLabel source name, kind⟩, false⟩ :: slots, ?_,
      List.forall_mem_cons.mpr ⟨h.slot_sound hname, hsound⟩⟩
    rw [records, List.filter_append, hslots]
    rfl
  | @declaration name kind rest hname _ ih =>
    intro w h
    obtain ⟨slots, hslots, hsound⟩ := ih h.next.next
    refine ⟨⟨w.current, w.owner kind, ⟨.ofLabel source name, kind⟩, true⟩ :: slots, ?_,
      List.forall_mem_cons.mpr ⟨h.slot_sound hname, hsound⟩⟩
    rw [records, List.filter_append, records, List.filter_append, hslots]
    rfl
  | @reference name access rest _ ih =>
    intro w h
    obtain ⟨slots, hslots, hsound⟩ := ih h.next
    refine ⟨slots, ?_, hsound⟩
    rw [records, List.filter_append, hslots]
    rfl
  | @scope kind span inner rest _ _ ihin ih =>
    intro w h
    obtain ⟨within, hwithin, hsoundWithin⟩ := ihin h.inside
    obtain ⟨slots, hslots, hsound⟩ := ih h.next
    refine ⟨within ++ slots, ?_, List.forall_mem_append.mpr ⟨hsoundWithin, hsound⟩⟩
    rw [records, recordsAt, List.filter_append, hwithin, hslots, List.flatMap_append]

/-- A walk records every entry among those that it meets. -/
theorem recordsAt_subset {e : Entry} : ∀ {es : List Entry} (w : Walk), e ∈ es →
    ∃ w' : Walk, w'.recordsAt source e ⊆ w.records source es
  | e' :: rest, w, hmem => by
      rw [records]
      rcases List.mem_cons.mp hmem with rfl | hmem
      · exact ⟨w, List.subset_append_left ..⟩
      · obtain ⟨w', hsub⟩ := recordsAt_subset (w.entry source e') hmem
        exact ⟨w', List.subset_append_of_subset_right _ hsub⟩

/-- **A walk records every definition that occurs.** -/
theorem exists_definition_of_occurs {name : Label} {kind : DefinitionKind} {es : List Entry}
    (h : Entry.Occurs (.definition name kind) es) : ∀ w : Walk, ∃ owner : ScopeId,
      .definition owner ⟨.ofLabel source name, kind⟩ ∈ w.records source es := by
  induction h with
  | here hmem =>
    intro w
    obtain ⟨w', hsub⟩ : ∃ w', recordsAt source w' _ ⊆ w.records source _ := recordsAt_subset w hmem
    exact ⟨w'.owner kind, hsub (List.mem_singleton_self _)⟩
  | @inside es inner scope span hscope _ ih =>
    intro w
    obtain ⟨w', hsub⟩ : ∃ w', recordsAt source w' _ ⊆ w.records source _ :=
      recordsAt_subset w hscope
    obtain ⟨owner, hmem⟩ := ih (w'.enter scope span)
    exact ⟨owner, hsub hmem⟩

end Walk

/-- **What a program of the promised shape declares is among its definitions.** -/
theorem Syntax.Program.exists_definition {program : Program} {node : Node} {name : Label}
    {kind : DefinitionKind} {valued : Bool} (hkind : program.root.label.kind = .program)
    (hshaped : program.root.Shaped) (hnode : program.root.HoldsAsCode node)
    (hname : DeclaresAt node name kind valued) : ∃ owner : ScopeId,
      (owner, ⟨.ofLabel program.source name, kind⟩) ∈ program.definitions := by
  have hfits : Role.contents.Fits program.root.label := .inl hkind
  have hroot := declares_occurs hshaped hnode hname hfits
  have hoccurs : Entry.Occurs (.definition name kind) program.outline := by
    unfold outline
    cases program.sourceType with
    | script => exact hroot
    | module => exact .inside (List.mem_singleton_self _) hroot
  obtain ⟨owner, hmem⟩ := Walk.exists_definition_of_occurs hoccurs
    (.start program.root.label.span)
  exact ⟨owner, List.mem_filterMap.mpr ⟨_, hmem, rfl⟩⟩

/-- **The slots of a program are all there is of definitions and first values.** -/
theorem Syntax.Program.exists_slots (program : Program) : ∃ slots : List Slot,
    program.records.filter Record.isDeclaring = slots.flatMap Slot.records ∧
      ∀ slot ∈ slots, slot.Sound program.source (Declares program.root) (analyze program) :=
  Walk.exists_slots program.outline_valued (analyze_underway program)

end ScopeLint
