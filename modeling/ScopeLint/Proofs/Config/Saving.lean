import ScopeLint.Proofs.Config.Documents
import ScopeLint.Proofs.Files.Writing
import ScopeLint.Proofs.Text.Alike

/-! # Saved settings load back

The data of settings name every setting, so that no default takes the place of one, and the
settings are read back from them (`Settings.ofValue_toValue`).  They are plain values and a table
of texts, whose keys all differ, so a faithful format of documents keeps them
(`Settings.read_document`).  With what files keep, settings that are saved at a path load from it
as they were (`Settings.load_save`), wherever the path starts and leads.
-/

namespace ScopeLint

theorem Severity.ofName_name (severity : Severity) : ofName severity.name = .ok severity := by
  have hlower : severity.name.toLower = severity.name := by cases severity <;> decide +kernel
  rw [ofName, hlower]
  cases severity <;> rfl

theorem RuleLevels.insertEntry_last {entries : List (String × Severity)} {name : String}
    (severity : Severity) (h : ∀ e ∈ entries, e.1 < name) :
    insertEntry name severity entries = entries ++ [(name, severity)] := by
  induction entries with
  | nil => rfl
  | cons e entries ih =>
    obtain ⟨he, hentries⟩ := List.forall_mem_cons.mp h
    rw [insertEntry, if_neg (String.lt_asymm he), if_pos he, ih hentries]
    rfl

/-- Each name stands once. -/
theorem RuleLevels.nodup_names (levels : RuleLevels) : levels.names.Nodup := by
  rw [names, List.nodup_iff_pairwise_ne, List.pairwise_map]
  refine levels.increasing.imp ?_
  intro a b hlt heq
  exact String.lt_irrefl _ (heq ▸ hlt)

namespace Settings

/-! ### Data -/

theorem readSourceType_name (format : ConfigFormat) (sourceType : Syntax.SourceType) :
    readSourceType format (.text sourceType.name) = .ok sourceType := by
  cases sourceType <;> rfl

theorem readTexts_texts (texts : List String) :
    readTexts (.list (texts.map .text)) = .ok texts := by
  rw [readTexts]
  induction texts with
  | nil => rfl
  | cons s texts ih =>
    rw [List.map_cons, List.mapM_cons, ih]
    rfl

/-- Puts the severity of one rule among the levels. -/
def addLevel (levels : RuleLevels) (entry : String × ConfigValue) : Except Rejection RuleLevels :=
  return levels.insert entry.1 (← readSeverity entry.2)

theorem addLevel_name (levels : RuleLevels) (name : String) (severity : Severity) :
    addLevel levels (name, .text severity.name) = .ok (levels.insert name severity) := by
  rw [addLevel, readSeverity, Severity.ofName_name]
  rfl

/-- Levels in the order of their names come one after the other. -/
theorem foldlM_addLevel {levels : RuleLevels} {entries : List (String × Severity)}
    (h : (levels.entries ++ entries).Pairwise fun a b => a.1 < b.1) :
    (levelData entries).foldlM addLevel levels = .ok ⟨levels.entries ++ entries, h⟩ := by
  induction entries generalizing levels with
  | nil => simp [levelData, pure, Except.pure]
  | cons e entries ih =>
    have hlast : ∀ a ∈ levels.entries, a.1 < e.1 := fun a ha =>
      (List.pairwise_append.mp h).2.2 a ha e List.mem_cons_self
    have hinsert : (levels.insert e.1 e.2).entries = levels.entries ++ [e] :=
      RuleLevels.insertEntry_last e.2 hlast
    have hrest : ((levels.insert e.1 e.2).entries ++ entries).Pairwise fun a b => a.1 < b.1 := by
      simpa [hinsert] using h
    rw [levelData, List.map_cons, List.foldlM_cons, addLevel_name]
    refine (ih hrest).trans ?_
    simp [hinsert]

theorem readLevels_levelData (levels : RuleLevels) :
    readLevels (.record (levelData levels.entries)) = .ok levels := by
  have hempty : (RuleLevels.empty.entries ++ levels.entries).Pairwise fun a b => a.1 < b.1 :=
    levels.increasing
  exact foldlM_addLevel hempty

/-- **Settings are read from their data**, in either format. -/
theorem ofValue_toValue (format : ConfigFormat) (settings : Settings) :
    ofValue format settings.toValue = .ok settings := by
  have hsource := readSourceType_name format settings.sourceType
  have hextensions := readTexts_texts settings.extensions
  have hexclude := readTexts_texts settings.exclude
  have hlevels := readLevels_levelData settings.levels
  simp [ofValue, toValue, plainData, readEntry, hsource, hextensions, hexclude, hlevels, pure, bind,
    Except.pure, Except.bind]

/-! ### Documents -/

theorem levelData_eq (entries : List (String × Severity)) :
    levelData entries = ConfigValue.textEntries (entries.map fun e => (e.1, e.2.name)) := by
  rw [ConfigValue.textEntries, List.map_map]
  rfl

theorem isPlain_plainData (settings : Settings) : ∀ e ∈ settings.plainData, e.2.IsPlain := by
  intro e he
  simp only [plainData, List.mem_cons, List.not_mem_nil, or_false] at he
  rcases he with rfl | rfl | rfl
  · exact .text _
  · exact .texts _
  · exact .texts _

variable {format : DocumentFormat}

/-- **The document of settings is read as their data.** -/
theorem read_document (hformat : format.Faithful) (settings : Settings) :
    ∃ text, format.write settings.toValue = some text ∧
      format.read text = some settings.toValue := by
  have hkeys : (settings.plainData.map (·.1) ++ ["rules"]).Nodup := by
    show ["source_type", "extensions", "exclude", "rules"].Nodup
    decide
  have hnames : ((settings.levels.entries.map fun e => (e.1, e.2.name)).map (·.1)).Nodup := by
    rw [List.map_map]
    exact settings.levels.nodup_names
  rw [toValue, levelData_eq]
  exact hformat _ _ _ settings.isPlain_plainData hkeys hnames

/-! ### Files -/

variable {files : FileSystem} {path : Path} {force : Bool} {text : String}

theorem load_of_read {settings : Settings}
    (hread : files.read path = .ok (Utf8.encode text.toList))
    (hdata : format.read text = some settings.toValue) :
    format.load files path = .ok (some settings) := by
  have hcontains : files.contains path = true := by
    unfold FileSystem.read at hread
    rw [FileSystem.contains]
    cases hlookup : files.lookup path with
    | ok found => rfl
    | error fault =>
      rw [hlookup] at hread
      cases hread
  have htext : files.readText path = .ok text := by
    rw [FileSystem.readText, hread]
    simp only [Utf8.decode?_encode, Option.elim_some, String.ofList_toList]
  have hsettings : format.settings text = .ok settings := by
    rw [DocumentFormat.settings, hdata]
    exact ofValue_toValue .toml settings
  rw [DocumentFormat.load, if_pos hcontains, htext]
  simp only [hsettings]
  rfl

theorem save_eq_write {settings : Settings} (htext : format.write settings.toValue = some text)
    (hfree : files.contains path = false ∨ force = true) :
    format.save files path settings force =
      (files.write path (Utf8.encode text.toList)).mapError fun fault =>
        .unwritable (.noPlace fault) := by
  have hallowed : ¬ (files.contains path && !force) = true := by
    obtain hfresh | hforce := hfree
    · simp [hfresh]
    · simp [hforce]
  rw [DocumentFormat.save, if_neg hallowed, htext]

/-- Settings can be saved just where there is a place for a file, at a path that is free or may
be overwritten. -/
theorem exists_save_iff (hformat : format.Faithful) (settings : Settings) :
    (∃ saved, format.save files path settings force = .ok saved) ↔
      files.HasPlace path ∧ (files.contains path = false ∨ force = true) := by
  obtain ⟨text, htext, _⟩ := read_document hformat settings
  constructor
  · rintro ⟨saved, hsaved⟩
    have hfree : files.contains path = false ∨ force = true := by
      rw [DocumentFormat.save] at hsaved
      split at hsaved
      · cases hsaved
      · rename_i hallowed
        simpa [or_iff_not_imp_left] using hallowed
    rw [save_eq_write htext hfree] at hsaved
    cases hwrite : files.write path (Utf8.encode text.toList) with
    | error fault =>
      rw [hwrite] at hsaved
      cases hsaved
    | ok written => exact ⟨.of_write hwrite, hfree⟩
  · rintro ⟨hplace, hfree⟩
    obtain ⟨saved, hwrite, _⟩ := FileSystem.exists_write hplace (Utf8.encode text.toList)
    exact ⟨saved, by rw [save_eq_write htext hfree, hwrite]; rfl⟩

/-- **Saved settings load back.**  Where there is a place for a file, at a path that is free or
may be overwritten, settings can be saved, and what is then loaded from the path are the same
settings. -/
theorem load_save (hformat : format.Faithful) (settings : Settings)
    (hplace : files.HasPlace path) (hfree : files.contains path = false ∨ force = true) :
    ∃ saved, format.save files path settings force = .ok saved ∧
      format.load saved path = .ok (some settings) := by
  obtain ⟨text, htext, hdata⟩ := read_document hformat settings
  obtain ⟨saved, hwrite, hread⟩ := FileSystem.exists_write hplace (Utf8.encode text.toList)
  have hsaved : format.save files path settings force = .ok saved := by
    rw [save_eq_write htext hfree, hwrite]
    rfl
  exact ⟨saved, hsaved, load_of_read hread hdata⟩

/-- A file of settings outside the working directory that may be overwritten. -/
theorem load_save_odd :
    let odd : Settings := {
      sourceType := .script
      extensions := ["", "a\"b'c", "'''\"\"\"\r\n\t\\"]
      exclude := []
      levels := .empty }
    let kept : FileTree := .directory "etc" [.file "lint.toml" []]
    let files : FileSystem := ⟨.directory "" [.directory "home" [], kept], ["home"]⟩
    DocumentFormat.toml.Faithful ∧ files.HasPlace "/etc/lint.toml" ∧
      files.contains "/etc/lint.toml" = true ∧
      ∃ saved, DocumentFormat.toml.save files "/etc/lint.toml" odd true = .ok saved ∧
        DocumentFormat.toml.load saved "/etc/lint.toml" = .ok (some odd) := by
  intro odd kept files
  have hplace : files.HasPlace "/etc/lint.toml" := by
    refine ⟨by decide, ⟨[.root, .name "etc"], "lint.toml", kept, [files.top], by decide,
      rfl, rfl⟩, ?_⟩
    intro found hfound
    have hlookup : files.lookup "/etc/lint.toml" = .ok (.file "lint.toml" []) := rfl
    rw [hlookup] at hfound
    cases hfound
    rfl
  exact ⟨DocumentFormat.toml_faithful, hplace, by decide,
    load_save DocumentFormat.toml_faithful odd hplace (.inr rfl)⟩

end Settings

end ScopeLint
