import ScopeLint.Scope.Analysis
import ScopeLint.Proofs.Outline.FirstValues
import ScopeLint.Proofs.Walk.Closing

/-! # Walks and what they record

A walk hands each definition to a scope and lets each reference wait.  The
**records** of a walk (`Walk.records`) are these definitions and references, in
the order of the walk and as they are made: nothing is resolved in them yet.

`Walk.Reached` relates the states that a walk can be in to what has been recorded
by then.  Facts about finished scope trees are proved by induction on it, one
step of the walk at a time; a declaration that gives a first value counts as one
step, for the use always stands right behind the definition.
-/

namespace ScopeLint

open Syntax (Label Identifier Program)

/-- What a walk records. -/
inductive Record where
  /-- A definition, and the scope that owns it. -/
  | definition (owner : ScopeId) (d : Definition)
  /-- A reference. -/
  | reference (r : Reference)
  deriving DecidableEq, Repr, Inhabited

namespace Record

/-- The definition recorded, with its owner. -/
def definition? : Record → Option (ScopeId × Definition)
  | definition owner d => some (owner, d)
  | reference _ => none

/-- The reference recorded. -/
def reference? : Record → Option Reference
  | definition .. => none
  | reference r => some r

end Record

/-- The definitions among records, in order. -/
def definitionsIn (log : List Record) : List (ScopeId × Definition) :=
  log.filterMap Record.definition?

/-- The references among records, in order. -/
def referencesIn (log : List Record) : List Reference := log.filterMap Record.reference?

namespace Walk

/-- The scope that owns a name declared now. -/
def owner (w : Walk) (kind : DefinitionKind) : ScopeId :=
  if kind.hoists then (w.tree.variableScope? w.current).getD w.current else w.current

/-- The record of a declaration met now. -/
def declared (source : Source) (w : Walk) (name : Label) (kind : DefinitionKind) : Record :=
  .definition (w.owner kind) ⟨.ofLabel source name, kind⟩

/-- A reference met now. -/
def use (source : Source) (w : Walk) (name : Label) (access : Access) (init : Bool) : Reference :=
  ⟨.ofLabel source name, access, init, w.current, none⟩

theorem define_eq (source : Source) (w : Walk) (name : Label) (kind : DefinitionKind) :
    w.define source name kind =
      { w with tree := w.tree.define (w.owner kind) ⟨.ofLabel source name, kind⟩ } := rfl

theorem refer_eq (source : Source) (w : Walk) (name : Label) (access : Access) (init : Bool) :
    w.refer source name access init =
      ⟨w.tree, handUp [w.use source name access init] w.stack⟩ :=
  wait_eq w _

theorem tree_refer (source : Source) (w : Walk) (name : Label) (access : Access) (init : Bool) :
    (w.refer source name access init).tree = w.tree := by
  rw [refer_eq]

mutual

/-- What a walk records at one entry. -/
def recordsAt (source : Source) (w : Walk) : Entry → List Record
  | .definition name kind => [w.declared source name kind]
  | .reference name access init => [.reference (w.use source name access init)]
  | .scope kind span entries => records source (w.enter kind span) entries

/-- **What a walk records at entries**, in order. -/
def records (source : Source) (w : Walk) : List Entry → List Record
  | [] => []
  | e :: rest => recordsAt source w e ++ records source (w.entry source e) rest

end

/-- **The states of a walk and what has been recorded by then.** -/
inductive Reached (source : Source) (span : Span) : Walk → List Record → Prop
  | start : Reached source span (.start span) []
  | define {w : Walk} {log : List Record} (name : Label) (kind : DefinitionKind) :
      Reached source span w log → w.stack ≠ [] →
        Reached source span (w.define source name kind) (log ++ [w.declared source name kind])
  | declare {w : Walk} {log : List Record} (name : Label) (kind : DefinitionKind) :
      Reached source span w log → w.stack ≠ [] →
        Reached source span ((w.define source name kind).refer source name .write true)
          (log ++ [w.declared source name kind, .reference (w.use source name .write true)])
  | refer {w : Walk} {log : List Record} (name : Label) (access : Access) :
      Reached source span w log → w.stack ≠ [] →
        Reached source span (w.refer source name access false)
          (log ++ [.reference (w.use source name access false)])
  | enter {w : Walk} {log : List Record} (kind : ScopeKind) (extent : Span) :
      Reached source span w log → w.stack ≠ [] → Reached source span (w.enter kind extent) log
  | leave {w : Walk} {log : List Record} :
      Reached source span w log → w.stack ≠ [] → Reached source span w.leave log

/-! ### Walking entries -/

mutual

theorem opened_entry (source : Source) (w : Walk) :
    ∀ e : Entry, (w.entry source e).opened = w.opened
  | .definition .. => rfl
  | .reference name access init => opened_refer source w name access init
  | .scope kind span es => by
      rw [entry, opened_leave, opened_entries source (w.enter kind span) es]
      rfl

theorem opened_entries (source : Source) (w : Walk) :
    ∀ es : List Entry, (w.entries source es).opened = w.opened
  | [] => rfl
  | e :: es => by
      rw [entries, opened_entries source (w.entry source e) es, opened_entry source w e]

end

theorem stack_ne_nil_of_opened {w w' : Walk} (h : w'.opened = w.opened) (hw : w.stack ≠ []) :
    w'.stack ≠ [] := by
  intro he
  have hnil : w.opened = [] := by rw [← h, opened, he, List.map_nil]
  exact hw (List.map_eq_nil_iff.mp hnil)

/-- **Walking entries goes on from a reached state to a reached state.** -/
theorem Reached.entries {source : Source} {span : Span} {es : List Entry} (hes : Entry.Paired es) :
    ∀ {w : Walk} {log : List Record}, Reached source span w log → w.stack ≠ [] →
      Reached source span (w.entries source es) (log ++ w.records source es) := by
  induction hes with
  | nil =>
    intro w log hw _
    rw [Walk.entries, records, List.append_nil]
    exact hw
  | definition name kind _ ih =>
    intro w log hw hopen
    have hstep := ih (hw.define name kind hopen) hopen
    rw [List.append_assoc] at hstep
    exact hstep
  | declaration name kind _ ih =>
    intro w log hw hopen
    have hstep := ih (hw.declare name kind hopen)
      (stack_ne_nil_of_opened (opened_refer source _ name .write true) hopen)
    rw [List.append_assoc] at hstep
    exact hstep
  | reference name access _ ih =>
    intro w log hw hopen
    have hstep := ih (hw.refer name access hopen)
      (stack_ne_nil_of_opened (opened_refer source w name access false) hopen)
    rw [List.append_assoc] at hstep
    exact hstep
  | @scope kind extent inner rest _ _ ihin ih =>
    intro w log hw hopen
    have hinside := ihin (hw.enter kind extent hopen) (List.cons_ne_nil _ _)
    have hstill : ((w.enter kind extent).entries source inner).stack ≠ [] :=
      stack_ne_nil_of_opened (opened_entries source (w.enter kind extent) inner)
        (List.cons_ne_nil _ _)
    have hstep := ih (hinside.leave hstill)
      (stack_ne_nil_of_opened (opened_entry source w (.scope kind extent inner)) hopen)
    rw [List.append_assoc] at hstep
    exact hstep

/-- Closing all open scopes leaves none open. -/
theorem Reached.leaveAll {source : Source} {span : Span} {log : List Record} :
    ∀ (n : Nat) {w : Walk}, Reached source span w log → w.stack.length = n →
      Reached source span (w.leaveAll n) log ∧ (w.leaveAll n).stack = []
  | 0, w, hw, hn => ⟨hw, List.eq_nil_of_length_eq_zero hn⟩
  | n + 1, w, hw, hn => by
      have hopen : w.stack ≠ [] := List.ne_nil_of_length_eq_add_one hn
      have hlength : w.leave.stack.length = n := by
        have hopened : w.leave.opened.length = n := by
          rw [opened_leave, List.length_tail, opened, List.length_map, hn, Nat.add_sub_cancel]
        rwa [opened, List.length_map] at hopened
      exact (hw.leave hopen).leaveAll n hlength

end Walk

/-! ### Programs -/

/-- The outline of a program has a first value behind a definition just where its tree gives
the name a value. -/
theorem Syntax.Program.outline_valued (program : Program) :
    Entry.Valued (Declares program.root) program.outline := by
  have hroot := ScopeLint.outline_valued .contents (.self program.root) trivial
  unfold outline
  cases program.sourceType with
  | script => exact hroot
  | module => exact .scope .module _ hroot .nil

/-- What the analysis of a program records, in order. -/
def Syntax.Program.records (program : Program) : List Record :=
  (Walk.start program.root.label.span).records program.source program.outline

/-- **The references of a program**, in the order in which they are made. -/
def Syntax.Program.references (program : Program) : List Reference := referencesIn program.records

/-- **The definitions of a program**, with the scopes that own them, in order. -/
def Syntax.Program.definitions (program : Program) : List (ScopeId × Definition) :=
  definitionsIn program.records

/-- **The scope tree of a program is that of a walk with no scope left open.** -/
theorem analyze_reached (program : Program) :
    ∃ w : Walk, Walk.Reached program.source program.root.label.span w program.records ∧
      w.tree = analyze program ∧ w.stack = [] := by
  have hstart : Walk.Reached program.source program.root.label.span
      (.start program.root.label.span) [] := .start
  have hrun := hstart.entries program.outline_valued.paired (List.cons_ne_nil _ _)
  rw [List.nil_append] at hrun
  obtain ⟨hend, hclosed⟩ := hrun.leaveAll _ rfl
  exact ⟨_, hend, rfl, hclosed⟩

end ScopeLint
