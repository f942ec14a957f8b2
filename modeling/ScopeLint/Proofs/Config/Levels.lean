import ScopeLint.Config.Settings

/-! # Changing the level of one rule

A configuration is changed for one rule by giving the rule another severity, by
leaving the rule out, or by leaving out all others.  What a configuration says is
the severity of each name, so each change is told by what it does to severities;
and each keeps a configuration valid, for it names no rule that was not named or
known before.
-/

namespace ScopeLint

namespace RuleLevels

variable {levels : RuleLevels} {name other : String} {severity : Severity}

/-- The levels of the names that pass a test. -/
def keep (levels : RuleLevels) (test : String → Bool) : RuleLevels :=
  ⟨levels.entries.filter (test ·.1), levels.increasing.filter _⟩

/-! ### What is said of each name -/

theorem find?_insertEntry (name : String) (severity : Severity) (other : String) :
    ∀ entries : List (String × Severity),
      (insertEntry name severity entries).find? (·.1 == other) =
        if other = name then some (name, severity) else entries.find? (·.1 == other)
  | [] => by
      by_cases h : other = name
      · simp [insertEntry, h]
      · simp [insertEntry, h, Ne.symm h]
  | first :: rest => by
      have ih := find?_insertEntry name severity other rest
      unfold insertEntry
      split
      · by_cases h : other = name
        · simp [h]
        · simp [h, Ne.symm h]
      · split
        · rename_i hafter
          -- The name comes later, so the first pair is of another name.
          have hfirst : (first.1 == name) = false :=
            beq_false_of_ne fun he => String.lt_irrefl _ (he ▸ hafter)
          rw [List.find?_cons, List.find?_cons, ih]
          by_cases h : other = name
          · rw [h, hfirst, if_pos rfl]
          · simp only [if_neg h]
        · rename_i hbefore hafter
          have hname : first.1 = name := String.le_antisymm hbefore hafter
          by_cases h : other = name
          · simp [h]
          · simp [h, Ne.symm h, hname]

theorem severity?_insert (levels : RuleLevels) (name : String) (severity : Severity)
    (other : String) :
    (levels.insert name severity).severity? other =
      if other = name then some severity else levels.severity? other := by
  unfold severity? insert
  rw [find?_insertEntry]
  split <;> rfl

theorem severity?_keep (levels : RuleLevels) (test : String → Bool) (name : String) :
    (levels.keep test).severity? name = if test name then levels.severity? name else none := by
  have htest : ∀ e : String × Severity,
      decide (test e.1 = true ∧ (e.1 == name) = true) = (test name && e.1 == name) := by
    intro e
    by_cases h : e.1 = name
    · simp [h]
    · simp [h]
  show ((levels.entries.filter _).find? _).map _ = _
  rw [List.find?_filter]
  simp only [htest]
  cases test name with
  | true => rfl
  | false => simp

/-! ### Names -/

theorem mem_names_of_insert (h : other ∈ (levels.insert name severity).names) :
    other = name ∨ other ∈ levels.names := by
  obtain ⟨e, he, rfl⟩ := List.mem_map.mp h
  rcases mem_insertEntry he with rfl | he
  · exact Or.inl rfl
  · exact Or.inr (List.mem_map_of_mem he)

theorem mem_names_of_keep {test : String → Bool} (h : other ∈ (levels.keep test).names) :
    other ∈ levels.names := by
  obtain ⟨e, he, rfl⟩ := List.mem_map.mp h
  exact List.mem_map_of_mem (List.mem_filter.mp he).1

theorem mem_names_of_severity? (h : levels.severity? name = some severity) :
    name ∈ levels.names := by
  obtain ⟨e, he, _⟩ := Option.map_eq_some_iff.mp h
  have hname : e.1 = name := by simpa using List.find?_some he
  exact hname ▸ List.mem_map_of_mem (List.mem_of_find?_eq_some he)

end RuleLevels

namespace Settings

variable {settings : Settings} {registry : Registry} {name : String}

/-- The settings in which a rule has a severity. -/
def withLevel (settings : Settings) (name : String) (severity : Severity) : Settings :=
  { settings with levels := settings.levels.insert name severity }

/-- The settings that name no other rule. -/
def only (settings : Settings) (name : String) : Settings :=
  { settings with levels := settings.levels.keep (· == name) }

/-- The settings without a rule. -/
def without (settings : Settings) (name : String) : Settings :=
  { settings with levels := settings.levels.keep (· != name) }

@[simp] theorem severity_withLevel (settings : Settings) (name : String) (severity : Severity)
    (other : String) :
    (settings.withLevel name severity).severity other =
      if other = name then severity else settings.severity other := by
  unfold Settings.severity withLevel
  rw [RuleLevels.severity?_insert]
  split <;> rfl

@[simp] theorem severity_only (settings : Settings) (name other : String) :
    (settings.only name).severity other =
      if other = name then settings.severity other else .off := by
  unfold Settings.severity only
  rw [RuleLevels.severity?_keep]
  by_cases h : other = name <;> simp [h]

@[simp] theorem severity_without (settings : Settings) (name other : String) :
    (settings.without name).severity other =
      if other = name then .off else settings.severity other := by
  unfold Settings.severity without
  rw [RuleLevels.severity?_keep]
  by_cases h : other = name <;> simp [h]

/-! ### Valid settings -/

theorem validate_iff : settings.validate registry = .ok () ↔
    ∀ name ∈ settings.levels.names, registry.knows name = true := by
  unfold validate
  cases hfind : settings.levels.names.find? fun name => !registry.knows name with
  | none => simpa using List.find?_eq_none.mp hfind
  | some name =>
    have hunknown := List.find?_some hfind
    have hmem := List.mem_of_find?_eq_some hfind
    constructor
    · intro h
      cases h
    · intro h
      rw [h name hmem] at hunknown
      cases hunknown

/-- A rule that is enabled in valid settings is known. -/
theorem knows_of_isEnabled (hvalid : settings.validate registry = .ok ())
    (h : (settings.severity name).isEnabled = true) : registry.knows name = true := by
  unfold Settings.severity at h
  cases hlevel : settings.levels.severity? name with
  | none =>
    rw [hlevel] at h
    cases h
  | some severity =>
    exact validate_iff.mp hvalid name (RuleLevels.mem_names_of_severity? hlevel)

theorem validate_withLevel (hvalid : settings.validate registry = .ok ())
    (hname : registry.knows name = true) (severity : Severity) :
    (settings.withLevel name severity).validate registry = .ok () := by
  refine validate_iff.mpr fun other hother => ?_
  rcases RuleLevels.mem_names_of_insert hother with rfl | hother
  · exact hname
  · exact validate_iff.mp hvalid other hother

theorem validate_only (hvalid : settings.validate registry = .ok ()) (name : String) :
    (settings.only name).validate registry = .ok () :=
  validate_iff.mpr fun other hother =>
    validate_iff.mp hvalid other (RuleLevels.mem_names_of_keep hother)

theorem validate_without (hvalid : settings.validate registry = .ok ()) (name : String) :
    (settings.without name).validate registry = .ok () :=
  validate_iff.mpr fun other hother =>
    validate_iff.mp hvalid other (RuleLevels.mem_names_of_keep hother)

end Settings

end ScopeLint
