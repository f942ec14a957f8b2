import ScopeLint.Severity

/-!
# The levels of rules

A configuration gives a severity to each rule that it names.  The pairs are kept
in the order of the names, one for each name, so that two configurations that
say the same are equal.
-/

namespace ScopeLint

/-- The severity of each named rule, in the order of the names. -/
structure RuleLevels where
  /-- The names and their severities. -/
  entries : List (String × Severity)
  /-- Each name comes before all later ones. -/
  increasing : entries.Pairwise fun a b => a.1 < b.1

namespace RuleLevels

instance : DecidableEq RuleLevels := fun a b =>
  if h : a.entries = b.entries then
    .isTrue (by cases a; cases b; cases h; rfl)
  else
    .isFalse fun e => h (e ▸ rfl)

/-- No rule is named. -/
def empty : RuleLevels := ⟨[], .nil⟩

instance : Inhabited RuleLevels := ⟨empty⟩

/-- One rule is named. -/
def single (name : String) (severity : Severity) : RuleLevels :=
  ⟨[(name, severity)], .cons (by simp) .nil⟩

/-- Puts a pair in its place among `entries`, for any pair of its name. -/
def insertEntry (name : String) (severity : Severity) :
    List (String × Severity) → List (String × Severity)
  | [] => [(name, severity)]
  | e :: rest =>
    if name < e.1 then (name, severity) :: e :: rest
    else if e.1 < name then e :: insertEntry name severity rest
    else (name, severity) :: rest

theorem mem_insertEntry {name : String} {severity : Severity} {e : String × Severity} :
    ∀ {entries : List (String × Severity)}, e ∈ insertEntry name severity entries →
      e = (name, severity) ∨ e ∈ entries
  | [], h => by simp_all [insertEntry]
  | first :: rest, h => by
    unfold insertEntry at h
    split at h
    · simpa using h
    · split at h
      · rcases List.mem_cons.1 h with h | h
        · simp [h]
        · rcases mem_insertEntry h with h | h <;> simp [h]
      · rcases List.mem_cons.1 h with h | h <;> simp [h]

theorem insertEntry_increasing (name : String) (severity : Severity) :
    ∀ {entries : List (String × Severity)}, entries.Pairwise (fun a b => a.1 < b.1) →
      (insertEntry name severity entries).Pairwise fun a b => a.1 < b.1
  | [], _ => by simp [insertEntry]
  | first :: rest, h => by
    obtain ⟨head, tail⟩ := List.pairwise_cons.1 h
    unfold insertEntry
    split
    · rename_i lt
      refine List.pairwise_cons.2 ⟨fun e he => ?_, h⟩
      rcases List.mem_cons.1 he with rfl | he
      · exact lt
      · exact String.lt_trans lt (head e he)
    · split
      · rename_i lt
        refine List.pairwise_cons.2 ⟨fun e he => ?_, insertEntry_increasing name severity tail⟩
        rcases mem_insertEntry he with rfl | he
        · exact lt
        · exact head e he
      · rename_i h1 h2
        have same : first.1 = name := String.le_antisymm h1 h2
        exact List.pairwise_cons.2 ⟨fun e he => same ▸ head e he, tail⟩

/-- Gives a rule a severity. -/
def insert (levels : RuleLevels) (name : String) (severity : Severity) : RuleLevels :=
  ⟨insertEntry name severity levels.entries, insertEntry_increasing name severity levels.increasing⟩

/-- The severity of a rule, where it is named. -/
def severity? (levels : RuleLevels) (name : String) : Option Severity :=
  (levels.entries.find? (·.1 == name)).map (·.2)

/-- The names, in order. -/
def names (levels : RuleLevels) : List String := levels.entries.map (·.1)

end RuleLevels

end ScopeLint
