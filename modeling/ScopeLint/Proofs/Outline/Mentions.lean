import ScopeLint.Proofs.Analysis.Reports

/-! # What an outline mentions

The **mentions** of an outline are the nodes of its definitions and of its uses
that are not first values, in order.  The scopes that they lie in do not matter,
and neither does the state of the walk: so the rule reports exactly the mentions
of the word in the outline of a program (`NoUndefined.reports_perm_outline`).
-/

namespace ScopeLint

open Syntax (Label Identifier Node Program)

mutual

/-- The nodes that an entry mentions. -/
def Entry.mentions : Entry → List Label
  | .definition name _ => [name]
  | .reference name _ init => if init then [] else [name]
  | .scope _ _ entries => mentionsAll entries

/-- **The nodes that entries mention**, in order. -/
def mentionsAll : List Entry → List Label
  | [] => []
  | e :: rest => e.mentions ++ mentionsAll rest

end

/-- The identifier that a record is about, unless it is a first value. -/
def Record.mention? : Record → Option Identifier
  | definition _ d => some d.name
  | reference r => if r.init then none else some r.identifier

@[simp] theorem mentionsAll_append : ∀ es es' : List Entry,
    mentionsAll (es ++ es') = mentionsAll es ++ mentionsAll es'
  | [], _ => rfl
  | e :: es, es' => by
      rw [List.cons_append, mentionsAll, mentionsAll, mentionsAll_append es es', List.append_assoc]

/-- A pattern that declares names mentions each of them as a definition. -/
@[simp] theorem mentionsAll_declarations (kind : DefinitionKind) (init : Bool) :
    ∀ names : List (Label × Bool),
      mentionsAll (Pattern.declarations kind init names) = names.map Prod.fst
  | [] => rfl
  | (name, underDefault) :: rest => by
      have ih := mentionsAll_declarations kind init rest
      show mentionsAll ((_ :: _) ++ Pattern.declarations kind init rest) = _
      rw [mentionsAll_append, ih]
      by_cases h : (init || underDefault) = true
      · rw [if_pos h]
        rfl
      · rw [if_neg h]
        rfl

@[simp] theorem mentionsAll_assignments : ∀ names : List (Label × Bool),
    mentionsAll (Pattern.assignments names) = names.map Prod.fst
  | [] => rfl
  | (name, _) :: rest => congrArg (name :: ·) (mentionsAll_assignments rest)

mutual

theorem mentions_recordsAt (source : Source) (w : Walk) : ∀ e : Entry,
    (w.recordsAt source e).filterMap Record.mention? = e.mentions.map (.ofLabel source)
  | .definition name kind => rfl
  | .reference name access init => by
      cases init <;> rfl
  | .scope kind span es => mentions_records source (w.enter kind span) es

/-- A walk records what the outline mentions. -/
theorem mentions_records (source : Source) (w : Walk) : ∀ es : List Entry,
    (w.records source es).filterMap Record.mention? = (mentionsAll es).map (.ofLabel source)
  | [] => rfl
  | e :: es => by
      rw [Walk.records, List.filterMap_append, mentions_recordsAt source w e,
        mentions_records source (w.entry source e) es, mentionsAll, List.map_append]

end

/-- Definitions and uses may be taken together or apart. -/
theorem mention_perm : ∀ log : List Record,
    ((definitionsIn log).map (·.2.name) ++
      ((referencesIn log).filter (!·.init)).map (·.identifier)).Perm
        (log.filterMap Record.mention?)
  | [] => .nil
  | .definition _ _ :: log => .cons _ (mention_perm log)
  | .reference r :: log => by
      have ih := mention_perm log
      cases hinit : r.init with
      | true =>
        have hhead : (Record.reference r :: log).filterMap Record.mention? =
            log.filterMap Record.mention? := by
          simp [Record.mention?, hinit]
        have hrefs : (referencesIn (Record.reference r :: log)).filter (!·.init) =
            (referencesIn log).filter (!·.init) := by
          simp [referencesIn, Record.reference?, hinit]
        rw [hhead, hrefs]
        exact ih
      | false =>
        have hhead : (Record.reference r :: log).filterMap Record.mention? =
            r.identifier :: log.filterMap Record.mention? := by
          simp [Record.mention?, hinit]
        rw [hhead]
        refine List.Perm.trans ?_ (ih.cons r.identifier)
        have hrefs : (referencesIn (Record.reference r :: log)).filter (!·.init) =
            r :: (referencesIn log).filter (!·.init) := by
          simp [referencesIn, Record.reference?, hinit]
        rw [hrefs]
        exact List.perm_middle

/-- The mentions of a program are those of its outline, in some order. -/
theorem Syntax.Program.mentions_perm (program : Program) :
    program.mentions.Perm ((mentionsAll program.outline).map (.ofLabel program.source)) := by
  rw [← mentions_records program.source (.start program.root.label.span)]
  exact mention_perm program.records

/-- A module's scope hides nothing. -/
theorem Syntax.Program.mentionsAll_outline (program : Program) :
    mentionsAll program.outline = mentionsAll (program.root.outline .contents) := by
  unfold outline
  cases program.sourceType with
  | script => rfl
  | module => exact List.append_nil _

/-- The rule reports the mentions of the word in the outline of a program. -/
theorem NoUndefined.reports_perm_outline (program : Program) :
    ((rule.check (analyze program)).map (·.node)).Perm
      (((mentionsAll (program.root.outline .contents)).map (.ofLabel program.source)).filter
        (·.name = word)) := by
  rw [← program.mentionsAll_outline]
  exact (reports_perm program).trans (program.mentions_perm.filter _)

end ScopeLint
