import ScopeLint.Proofs.Analysis.Scoping
import ScopeLint.Proofs.Outline.Once
import ScopeLint.Proofs.Walk.Definitions
import ScopeLint.Proofs.Walk.Slots

/-! # First values come home

The first values of a program are the valued slots of its tree.  The scope that owns the
name of a slot lies around the one it is written in, and declares the name; so the first
value has a home, which may lie nearer than the owner but no further out
(`Slot.exists_home`).  Hence no first value is left unresolved.
-/

namespace ScopeLint

open Syntax (Program)

/-! ### Definitions and first values apart -/

theorem definitionsIn_filter (log : List Record) :
    definitionsIn (log.filter Record.isDeclaring) = definitionsIn log := by
  rw [definitionsIn, definitionsIn, List.filterMap_filter]
  refine List.filterMap_congr fun record _ => ?_
  cases record with
  | definition owner d => rfl
  | reference r => cases h : r.init <;> simp [Record.isDeclaring, Record.definition?, h]

theorem referencesIn_filter (log : List Record) :
    referencesIn (log.filter Record.isDeclaring) = (referencesIn log).filter (·.init) := by
  rw [referencesIn, referencesIn, List.filterMap_filter, List.filter_filterMap]
  refine List.filterMap_congr fun record _ => ?_
  cases record with
  | definition owner d => rfl
  | reference r =>
    cases h : r.init <;> simp [Record.isDeclaring, Record.reference?, Option.filter, h]

namespace Slot

theorem definitionsIn_records (slots : List Slot) :
    definitionsIn (slots.flatMap records) = slots.map fun s => (s.owner, s.definition) := by
  induction slots with
  | nil => rfl
  | cons slot slots ih =>
    rw [List.flatMap_cons, Walk.definitionsIn_append, ih, records]
    cases slot.valued <;> rfl

theorem referencesIn_records (slots : List Slot) :
    referencesIn (slots.flatMap records) = (slots.filter (·.valued)).map firstValue := by
  induction slots with
  | nil => rfl
  | cons slot slots ih =>
    have hsplit : referencesIn ((slot :: slots).flatMap records) =
        referencesIn slot.records ++ referencesIn (slots.flatMap records) := by
      rw [List.flatMap_cons, referencesIn, List.filterMap_append]
      rfl
    rw [hsplit, ih, List.filter_cons, records]
    cases slot.valued <;> rfl

variable {source : Source} {declares : Syntax.Label → DefinitionKind → Bool → Prop}
  {t : ScopeTree} {slot : Slot}

/-- **The first value of a slot has a home**, at the owner of the name or nearer. -/
theorem Sound.exists_home (h : slot.Sound source declares t) (ht : t.Formed) {outer : Scope}
    (houter : t.scope? slot.owner = some outer)
    (hmem : slot.definition ∈ outer.definitionsOf slot.firstValue.name) :
    ∃ home : Nat, t.home? slot.firstValue = some home ∧ home ∈ t.chain slot.site ∧
      slot.owner ∈ t.chain home := by
  have howner := h.owner_mem_chain ht
  have hdeclares : t.declares slot.owner slot.firstValue.name = true := by
    rw [ScopeTree.declares_of_scope houter]
    by_contra hnot
    rw [Scope.definitionsOf_of_not_declares (Bool.eq_false_iff.mpr hnot)] at hmem
    exact List.not_mem_nil hmem
  have hsome : ((t.chain slot.site).find? (t.declares · slot.firstValue.name)).isSome :=
    List.find?_isSome.mpr ⟨slot.owner, howner, hdeclares⟩
  obtain ⟨home, hhome⟩ := Option.isSome_iff_exists.mp hsome
  obtain ⟨hchain, _, hnearest⟩ := (ht.find?_chain_iff h.site_lt _).mp hhome
  -- Of the scopes on the chain that declare the name the home is the innermost.
  have hle : slot.owner ≤ home := by
    by_contra hgt
    rw [hnearest slot.owner howner (Nat.not_le.mp hgt)] at hdeclares
    cases hdeclares
  exact ⟨home, hhome, hchain, ht.mem_chain_of_le h.site_lt howner hchain hle⟩

end Slot

/-! ### The slots of a program -/

/-- **The slots of a program**: one for each definition, with one first value for each that
is valued. -/
structure SlotsOf (program : Program) (slots : List Slot) : Prop where
  definitions : program.definitions = slots.map fun slot => (slot.owner, slot.definition)
  firstValues : program.references.filter (·.init) =
    (slots.filter (·.valued)).map Slot.firstValue
  sound : ∀ slot ∈ slots, slot.Sound program.source (Declares program.root) (analyze program)

theorem exists_slotsOf (program : Program) : ∃ slots, SlotsOf program slots := by
  obtain ⟨slots, hrecords, hsound⟩ := program.exists_slots
  refine ⟨slots, ?_, ?_, hsound⟩
  · rw [Program.definitions, ← definitionsIn_filter, hrecords, Slot.definitionsIn_records]
  · rw [Program.references, ← referencesIn_filter, hrecords, Slot.referencesIn_records]

namespace SlotsOf

variable {program : Program} {slots : List Slot} {slot : Slot}

/-- A scope has the definitions of the slots that it owns. -/
theorem definitionsOf_eq (h : SlotsOf program slots) {i : Nat} {s : Scope}
    (hs : (analyze program).scope? i = some s) (name : String) :
    s.definitionsOf name =
      (slots.filter fun slot => slot.owner = i ∧ slot.definition.name.name = name).map
        (·.definition) := by
  obtain ⟨w, hw, htree, _⟩ := analyze_reached program
  have hgiven : s.definitionsOf name = (program.definitions.filter fun d =>
      d.1 = i ∧ d.2.name.name = name).map (·.2) := (htree ▸ hw.defined.given i s) hs name
  rw [hgiven, h.definitions, List.filter_map, List.map_map]
  rfl

theorem exists_owner (h : SlotsOf program slots) (hslot : slot ∈ slots) :
    ∃ outer : Scope, (analyze program).scope? slot.owner = some outer ∧
      slot.definition ∈ outer.definitionsOf slot.definition.name.name := by
  have hformed := analyze_formed program
  have hsound := h.sound slot hslot
  have hle := hformed.le_of_mem_chain hsound.site_lt (hsound.owner_mem_chain hformed)
  obtain ⟨outer, houter⟩ := ScopeTree.scope?_isSome (Nat.lt_of_le_of_lt hle hsound.site_lt)
  refine ⟨outer, houter, ?_⟩
  rw [h.definitionsOf_eq houter]
  exact List.mem_map_of_mem (List.mem_filter.mpr ⟨hslot, decide_eq_true ⟨rfl, rfl⟩⟩)

theorem exists_home (h : SlotsOf program slots) (hslot : slot ∈ slots) :
    ∃ home : Nat, (analyze program).home? slot.firstValue = some home ∧
      home ∈ (analyze program).chain slot.site ∧ slot.owner ∈ (analyze program).chain home := by
  obtain ⟨outer, houter, hmem⟩ := h.exists_owner hslot
  exact (h.sound slot hslot).exists_home (analyze_formed program) houter hmem

/-- A first value is that of a valued slot. -/
theorem exists_slot (h : SlotsOf program slots) {r : Reference} (hr : r ∈ program.references)
    (hinit : r.init = true) : ∃ slot ∈ slots, slot.valued = true ∧ slot.firstValue = r := by
  have hmade : r ∈ program.references.filter (·.init) := List.mem_filter.mpr ⟨hr, hinit⟩
  rw [h.firstValues] at hmade
  obtain ⟨slot, hslot, rfl⟩ := List.mem_map.mp hmade
  obtain ⟨hslot, hvalued⟩ := List.mem_filter.mp hslot
  exact ⟨slot, hslot, hvalued, rfl⟩

/-- No first value has passed through the global scope. -/
theorem init_of_unresolved (h : SlotsOf program slots) {r : Reference}
    (hr : r ∈ (analyze program).unresolved) : r.init = false := by
  have htwo := analyze_twoPass program
  rw [TwoPass.unresolved_eq (analyze_formed program) (fun r hr => (htwo.made r hr).1)
    htwo.through] at hr
  obtain ⟨hr, hnone⟩ := List.mem_filter.mp hr
  cases hinit : r.init with
  | false => rfl
  | true =>
    obtain ⟨slot, hslot, _, rfl⟩ := h.exists_slot hr hinit
    obtain ⟨home, hhome, _⟩ := h.exists_home hslot
    rw [of_decide_eq_true hnone] at hhome
    cases hhome

/-- Whether a slot is valued is what the tree says of the name. -/
theorem valued_eq (h : SlotsOf program slots) (hshaped : program.root.Shaped)
    (hroot : program.root.Distinct) (hslot : slot ∈ slots) {name : Syntax.Label}
    {kind : DefinitionKind} {valued : Bool} (hname : Declares program.root name kind valued)
    (hid : name.id = slot.definition.name.id) : slot.valued = valued := by
  obtain ⟨own, hown, hdefinition⟩ := (h.sound slot hslot).declared
  have hsame : own.id = name.id := by
    rw [hid, hdefinition]
    rfl
  exact hown.unique hshaped hroot hname hsame

/-- The slots of a program whose nodes are told apart are of different nodes. -/
theorem nodup_ids (h : SlotsOf program slots) (hplaced : program.root.Placed) :
    (slots.map (·.definition.name.id)).Nodup := by
  have hids : program.definitions.map (·.2.name.id) = slots.map (·.definition.name.id) := by
    rw [h.definitions, List.map_map]
    rfl
  have hnodup := program.mentions_nodup hplaced
  rw [Program.mentions, List.map_append, List.map_map] at hnodup
  exact hids ▸ hnodup.of_append_left

/-- Of slots of different nodes, one is of the node of a given one. -/
theorem filter_id_eq : ∀ {slots : List Slot}, (slots.map (·.definition.name.id)).Nodup →
    slot ∈ slots → slots.filter (·.definition.name.id = slot.definition.name.id) = [slot]
  | first :: rest, hnodup, hslot => by
      obtain ⟨hfirst, hrest⟩ := List.nodup_cons.mp hnodup
      have hother : ∀ other ∈ rest, other.definition.name.id ≠ first.definition.name.id :=
        fun other hmem hid => hfirst (List.mem_map.mpr ⟨other, hmem, hid⟩)
      rcases List.mem_cons.mp hslot with rfl | hslot
      · have hnone : rest.filter (·.definition.name.id = slot.definition.name.id) = [] :=
          List.filter_eq_nil_iff.mpr fun other hmem hid => hother other hmem (of_decide_eq_true hid)
        rw [List.filter_cons, if_pos (decide_eq_true rfl), hnone]
      · have hne := (hother slot hslot).symm
        rw [List.filter_cons, if_neg (by simpa using hne), filter_id_eq hrest hslot]

/-- **A declared name has one slot.** -/
theorem exists_only (h : SlotsOf program slots) (hkind : program.root.label.kind = .program)
    (hshaped : program.root.Shaped) (hplaced : program.root.Placed) {node : Syntax.Node}
    (hnode : program.root.HoldsAsCode node) {name : Syntax.Label} {kind : DefinitionKind}
    {valued : Bool} (hname : DeclaresAt node name kind valued) :
    ∃ slot : Slot, slots.filter (·.definition.name.id = name.id) = [slot] ∧
      slot.definition = ⟨.ofLabel program.source name, kind⟩ ∧ slot.valued = valued := by
  obtain ⟨owner, hmem⟩ := Program.exists_definition hkind hshaped hnode hname
  rw [h.definitions] at hmem
  obtain ⟨slot, hslot, hdefinition⟩ := List.mem_map.mp hmem
  obtain ⟨_, hdefinition⟩ := Prod.mk.inj hdefinition
  have hid : slot.definition.name.id = name.id := congrArg (·.name.id) hdefinition
  refine ⟨slot, ?_, hdefinition, ?_⟩
  · rw [← hid]
    exact filter_id_eq (h.nodup_ids hplaced) hslot
  · exact h.valued_eq hshaped hplaced.distinct hslot ⟨node, hnode.holds, hname⟩ hid.symm

/-- The first values of a node are those of its slots that are valued. -/
theorem firstValues_of_node (h : SlotsOf program slots) (id : Nat) :
    program.references.filter (fun r => r.init = true ∧ r.identifier.id = id) =
      ((slots.filter (·.definition.name.id = id)).filter (·.valued)).map Slot.firstValue := by
  have hsplit : program.references.filter (fun r => r.init = true ∧ r.identifier.id = id) =
      (program.references.filter (·.init)).filter (·.identifier.id = id) := by
    rw [List.filter_filter]
    refine List.filter_congr fun r _ => ?_
    simp [Bool.and_comm]
  rw [hsplit, h.firstValues, List.filter_map, List.filter_filter, List.filter_filter]
  refine congrArg (List.map _) (List.filter_congr fun slot _ => ?_)
  exact Bool.and_comm ..

end SlotsOf

/-! ### The result -/

/-- **The first values of a program are its valued slots, and they come home.**  A reference
of the scope tree that is a first value is a write; it shares its node with a definition,
whose scope lies around it, and it is bound in a scope around it that is no further out
than that of the definition, so none is left unresolved.  All definitions belong to slots,
in order, and the first values to the slots that are valued.  The tree says of each slot
whether it is valued (`Declares`): in a pattern if its declarator has a value, if it stands
in the head of a loop over the items of a value or if the name lies in the left side of a
default, and not otherwise; the own names of functions, classes and imports never are.

Conversely, in a tree of the shape that the grammar promises, with nodes told apart, whatever
a node that is code declares (`DeclaresAt`) has one slot, valued or not as the tree says: one
definition, and one first value or none. -/
theorem firstValues_come_home (program : Program) :
    let t := analyze program
    program.references.Perm (t.unresolved ++
      t.scopes.flatMap fun s => s.bindings.flatMap fun b => b.references.map (·.unresolved)) ∧
    (∀ r ∈ program.references, r.init = true → r.access = .write ∧
      ∃ (owner home : Nat) (outer inner : Scope) (d : Definition),
        t.scope? owner = some outer ∧ d ∈ outer.definitionsOf r.name ∧ d.name = r.identifier ∧
        t.scope? home = some inner ∧ r.resolvedIn home ∈ inner.referencesOf r.name ∧
        owner ∈ t.chain r.origin ∧ home ∈ t.chain r.origin ∧ owner ∈ t.chain home) ∧
    (∀ r ∈ t.unresolved, r.init = false) ∧
    ∃ slots : List Slot,
      program.definitions = slots.map (fun slot => (slot.owner, slot.definition)) ∧
      program.references.filter (·.init) = (slots.filter (·.valued)).map Slot.firstValue ∧
      (∀ slot ∈ slots, slot.Sound program.source (Declares program.root) t) ∧
      (program.root.Shaped → program.root.Distinct → ∀ slot ∈ slots, ∀ name kind valued,
        Declares program.root name kind valued → name.id = slot.definition.name.id →
          slot.valued = valued) ∧
      (program.root.label.kind = .program → program.root.Shaped → program.root.Placed →
        ∀ node name kind valued, program.root.HoldsAsCode node →
          DeclaresAt node name kind valued → ∃ slot : Slot,
            slots.filter (·.definition.name.id = name.id) = [slot] ∧
            slot.definition = ⟨.ofLabel program.source name, kind⟩ ∧ slot.valued = valued ∧
            program.references.filter (fun r => r.init = true ∧ r.identifier.id = name.id) =
              if valued then [slot.firstValue] else []) ∧
      ∀ (i : Nat) s, t.scope? i = some s → ∀ name : String,
        s.definitionsOf name =
          (slots.filter fun slot => slot.owner = i ∧ slot.definition.name.name = name).map
            (·.definition) := by
  intro t
  have hformed := analyze_formed program
  have htwo := analyze_twoPass program
  obtain ⟨slots, hslots⟩ := exists_slotsOf program
  refine ⟨htwo.once, fun r hr hinit => ?_, fun r hr => hslots.init_of_unresolved hr, slots,
    hslots.definitions, hslots.firstValues, hslots.sound,
    fun hshaped hroot slot hslot name kind valued hname hid =>
      hslots.valued_eq hshaped hroot hslot hname hid,
    fun hkind hshaped hplaced node name kind valued hnode hname => ?_,
    fun i s hs => hslots.definitionsOf_eq hs⟩
  case refine_1 =>
    obtain ⟨slot, hslot, _, rfl⟩ := hslots.exists_slot hr hinit
    have hsound := hslots.sound slot hslot
    obtain ⟨outer, houter, hmem⟩ := hslots.exists_owner hslot
    obtain ⟨home, hhome, hchain, haround⟩ := hslots.exists_home hslot
    have hle := hformed.le_of_mem_chain hsound.site_lt hchain
    obtain ⟨inner, hinner⟩ := ScopeTree.scope?_isSome (Nat.lt_of_le_of_lt hle hsound.site_lt)
    have hbound : slot.firstValue.resolvedIn home ∈ inner.referencesOf slot.firstValue.name := by
      rw [htwo.referencesOf_eq hinner]
      exact List.mem_map_of_mem (List.mem_filter.mpr ⟨hr, decide_eq_true ⟨hhome, rfl⟩⟩)
    exact ⟨rfl, slot.owner, home, outer, inner, slot.definition, houter, hmem, rfl, hinner,
      hbound, hsound.owner_mem_chain hformed, hchain, haround⟩
  case refine_2 =>
    obtain ⟨slot, honly, hdefinition, hvalued⟩ :=
      hslots.exists_only hkind hshaped hplaced hnode hname
    refine ⟨slot, honly, hdefinition, hvalued, ?_⟩
    rw [hslots.firstValues_of_node, honly, List.filter_singleton, hvalued]
    cases valued <;> rfl

/-! ### A default in a catch clause -/

namespace CaughtWithDefault

open Syntax (Label Node Kind Shape)

/-- A program whose catch clause takes its parameter apart, with a default for the second
item. -/
def text : String := "try {} catch ([a, b = 1]) {}"

/-- The first item. -/
def first : Label := .onFirstLine 5 .identifier 15 16 []

/-- The name of the second item. -/
def second : Label := .onFirstLine 7 .identifier 18 19 [.left]

/-- The second item. -/
def defaulted : Node :=
  .node (.onFirstLine 6 .assignmentPattern 18 23 [])
    [.node second [], .node (.onFirstLine 8 (.other "number") 22 23 [.right]) []]

/-- The parameter. -/
def pattern : Node :=
  .node (.onFirstLine 4 .arrayPattern 14 24 [.parameter]) [.node first [], defaulted]

/-- The catch clause. -/
def clause : Node :=
  .node (.onFirstLine 3 .catchClause 7 28 [])
    [pattern, .node (.onFirstLine 9 .statementBlock 26 28 [.body]) []]

/-- The only statement. -/
def statement : Node :=
  .node (.onFirstLine 1 (.other "try_statement") 0 28 [])
    [.node (.onFirstLine 2 .statementBlock 4 6 [.body]) [], clause]

/-- The program. -/
def program : Program :=
  ⟨Source.ofText text, .node (.onFirstLine 0 .program 0 28 []) [statement], .script⟩

theorem defaulted_shaped : defaulted.Shaped := by
  refine .node ?_ (by simp [Node.Shaped.of_nil])
  constructor
  case parts =>
    intro _ c hc _ _ _
    rcases List.mem_pair.mp hc with rfl | rfl
    · exact .field (List.mem_cons_self ..) rfl
    · exact .field (List.mem_cons_of_mem _ (List.mem_singleton_self _)) rfl
  all_goals simp [second, Label.onFirstLine, Node.label, Kind.isLeaf, Kind.isPatternPart,
    Kind.isFunction, Kind.takesName, Kind.keyField?, Kind.parameterList]

theorem pattern_shaped : pattern.Shaped := by
  refine .node ?_ (by simp [Node.Shaped.of_nil, defaulted_shaped])
  constructor
  case patternPart => exact fun _ _ _ => .listed (Or.inr (Or.inl rfl))
  all_goals simp [first, defaulted, Label.onFirstLine, Node.label, Kind.isLeaf, Kind.isFunction,
    Kind.takesName, Kind.keyField?, Kind.isReadByField, Kind.parameterList]

theorem clause_shaped : clause.Shaped := by
  refine .node ?_ (by simp [Node.Shaped.of_nil, pattern_shaped])
  constructor
  case parts =>
    intro _ c hc _ _ _
    rcases List.mem_pair.mp hc with rfl | rfl
    · exact .field (List.mem_cons_self ..) rfl
    · exact .field (List.mem_cons_of_mem _ (List.mem_singleton_self _)) rfl
  all_goals simp [pattern, Label.onFirstLine, Node.label, Kind.isLeaf, Kind.isPatternPart,
    Kind.isFunction, Kind.takesName, Kind.keyField?, Kind.parameterList]

theorem statement_shaped : statement.Shaped := by
  refine .node ?_ (by simp [Node.Shaped.of_nil, clause_shaped])
  constructor <;> simp [clause, Label.onFirstLine, Node.label, Kind.isLeaf, Kind.isPatternPart,
    Kind.isFunction, Kind.takesName, Kind.keyField?, Kind.isReadByField, Kind.parameterList]

theorem root_shaped : program.root.Shaped := by
  refine .node ?_ (by simp [statement_shaped])
  constructor <;> simp [statement, Label.onFirstLine, Node.label, Kind.isLeaf,
    Kind.isPatternPart, Kind.isFunction, Kind.takesName, Kind.keyField?, Kind.isReadByField,
    Kind.parameterList, Kind.program]

theorem root_placed : program.root.Placed where
  distinct := by decide
  placed := by
    have hall : ∀ l ∈ program.root.labels,
        l.fields.length ≤ 1 ∧ l.kind ≠ .decorator ∧ l.kind ≠ .exportClause := by decide
    exact fun l hl => Label.placed_of_length (hall l hl).1 (hall l hl).2.1 (hall l hl).2.2

theorem holds_clause : program.root.HoldsAsCode clause :=
  .child (.plain rfl (List.mem_singleton_self _))
    (.child (.plain rfl (List.mem_cons_of_mem _ (List.mem_singleton_self _))) (.self _))

theorem declares_first : DeclaresAt clause first .catchClause false :=
  .inPattern (.caught rfl rfl) (.part (.listed rfl (List.mem_cons_self ..) rfl) (.name rfl))

theorem declares_second : DeclaresAt clause second .catchClause true :=
  .inPattern (.caught rfl rfl) (.part
    (.listed rfl (List.mem_cons_of_mem _ (List.mem_singleton_self _)) rfl)
    (.part (.defaulted rfl rfl) (.name rfl)))

end CaughtWithDefault

/-- In `try {} catch ([a, b = 1]) {}` the name `b` gets one first value, and `a` gets none. -/
theorem firstValues_come_home_default : ∃ a b : Slot,
    a.definition = ⟨.ofLabel CaughtWithDefault.program.source CaughtWithDefault.first,
      .catchClause⟩ ∧
    (CaughtWithDefault.program.references.filter fun r => r.init = true ∧ r.identifier.id = 5) =
      [] ∧
    b.definition = ⟨.ofLabel CaughtWithDefault.program.source CaughtWithDefault.second,
      .catchClause⟩ ∧
    (CaughtWithDefault.program.references.filter fun r => r.init = true ∧ r.identifier.id = 7) =
      [b.firstValue] := by
  obtain ⟨_, _, _, slots, _, _, _, _, honly, _⟩ :=
    firstValues_come_home CaughtWithDefault.program
  have hdeclared := honly rfl CaughtWithDefault.root_shaped CaughtWithDefault.root_placed
  obtain ⟨a, _, ha, _, hnone⟩ :=
    hdeclared _ _ _ _ CaughtWithDefault.holds_clause CaughtWithDefault.declares_first
  obtain ⟨b, _, hb, _, hone⟩ :=
    hdeclared _ _ _ _ CaughtWithDefault.holds_clause CaughtWithDefault.declares_second
  exact ⟨a, b, ha, hnone, hb, hone⟩

end ScopeLint
