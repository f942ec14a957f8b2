import ScopeLint.Proofs.Ignore.Laws

/-! # What the filter of a directory rejects

In a directory without ignore files the lines of its filter are the default ones and behind them
the user's, of which malformed ones are passed over (`LineReading.lines`).  What is rejected
(`LineReading.Rejects`) is what the last of them that decides ignores; so is what the filter
passes over, if it can be built (`LineReading.ignores_iff`), and otherwise it passes over nothing.

The default lines all ignore.  What one of them decides about is rejected when the user has no
lines (`LineReading.rejects_default`), and the same line behind an exclamation mark, as the last
of the user's, takes it back (`LineReading.not_rejects_kept`).
-/

namespace ScopeLint

theorem findSome?_reverse_eq_some_iff {α β : Type} {f : α → Option β} {b : β} {l : List α} :
    l.reverse.findSome? f = some b ↔ ∃ before a after, l = before ++ a :: after ∧
      f a = some b ∧ ∀ later ∈ after, f later = none := by
  rw [List.findSome?_eq_some_iff]
  constructor
  · rintro ⟨after, a, before, hsplit, ha, hafter⟩
    refine ⟨before.reverse, a, after.reverse, ?_, ha, fun x hx => hafter x (by simpa using hx)⟩
    rw [← l.reverse_reverse, hsplit]
    simp
  · rintro ⟨before, a, after, rfl, ha, hafter⟩
    exact ⟨after.reverse, a, before.reverse, by simp, ha, fun x hx => hafter x (by simpa using hx)⟩

namespace IgnoreLibrary

/-- **The filter of a directory can be built.** -/
def Builds (library : IgnoreLibrary) (root : Path) (contentOf? : String → Option (List UInt8))
    (exclude : List String) : Prop :=
  (library.build (library.filterBuilder root contentOf? exclude)).isSome = true

instance (library : IgnoreLibrary) (root : Path) (contentOf? : String → Option (List UInt8))
    (exclude : List String) : Decidable (library.Builds root contentOf? exclude) :=
  inferInstanceAs (Decidable (_ = _))

namespace LineReading

variable {library : IgnoreLibrary} {root : Path} (reading : library.LineReading root)
  {exclude names : List String} {line : String} {isDirectory : Bool}

/-- The lines of the filter of a directory without ignore files: the default ones, and behind
them those of the user's that are well formed. -/
def lines (exclude : List String) : List String := (defaultLines ++ exclude).filter reading.valid

/-- **The last line that decides about what names lead to ignores it.** -/
def Rejects (exclude names : List String) (isDirectory : Bool) : Prop :=
  ∃ before line after, reading.lines exclude = before ++ line :: after ∧
    reading.verdict line names isDirectory = some .ignored ∧
    ∀ later ∈ after, reading.verdict later names isDirectory = none

theorem rejects_iff : reading.Rejects exclude names isDirectory ↔
    ((reading.lines exclude).reverse.findSome? fun line =>
      reading.verdict line names isDirectory) = some .ignored :=
  findSome?_reverse_eq_some_iff.symm

instance : Decidable (reading.Rejects exclude names isDirectory) :=
  decidable_of_iff _ reading.rejects_iff.symm

/-! ### The filter -/

/-- Of some lines a builder takes in the well-formed ones. -/
theorem holds_foldl {builder : library.Builder} {held : List String} (more : List String)
    (h : reading.Holds builder held) :
    reading.Holds (more.foldl library.addWellFormed builder)
      (held ++ more.filter reading.valid) := by
  induction more generalizing builder held with
  | nil => simpa using h
  | cons line more ih =>
    rw [List.foldl_cons, addWellFormed]
    cases hvalid : reading.valid line with
    | true =>
      obtain ⟨builder', hbuilder', hholds⟩ := reading.add_valid h hvalid
      rw [hbuilder', Option.getD_some, List.filter_cons_of_pos hvalid]
      simpa using ih hholds
    | false =>
      rw [reading.add_malformed h hvalid, Option.getD_none,
        List.filter_cons_of_neg (by simp [hvalid])]
      exact ih h

variable {contentOf? : String → Option (List UInt8)} (hgitignore : contentOf? ".gitignore" = none)
  (hignore : contentOf? ".ignore" = none)
include hgitignore hignore

theorem holds_filterBuilder (exclude : List String) :
    reading.Holds (library.filterBuilder root contentOf? exclude) (reading.lines exclude) := by
  rw [filterBuilder, hgitignore, hignore]
  exact reading.holds_foldl _ (reading.no_file (reading.no_file reading.new))

/-- **What the filter of a directory without ignore files passes over** is what is rejected, if
there is a filter at all. -/
theorem ignores_iff (hne : names ≠ []) (hnames : ∀ name ∈ names, Path.IsName name) :
    library.ignores (library.filter root contentOf? exclude) (root.joinAll names) isDirectory =
        true ↔
      library.Builds root contentOf? exclude ∧ reading.Rejects exclude names isDirectory := by
  have hholds := reading.holds_filterBuilder hgitignore hignore exclude
  rw [IgnoreLibrary.ignores, decide_eq_true_eq, filter, Builds, rejects_iff]
  cases hbuild : library.build (library.filterBuilder root contentOf? exclude) with
  | none => simp [reading.empty]
  | some matcher => simp [reading.matched hholds hbuild hne hnames]

/-! ### Default lines -/

omit hgitignore hignore

/-- No default line begins with a character of a meaning of its own. -/
theorem head_of_default (h : line ∈ defaultLines) :
    ∀ c ∈ line.toList.head?, c ∉ ['!', '\\', '#'] := by
  have hall : (defaultLines.all fun line =>
      line.toList.head?.all fun c => c ∉ ['!', '\\', '#']) = true := by
    decide +kernel
  intro c hc
  simpa [Option.mem_def.mp hc] using List.all_eq_true.mp hall line h

/-- **Without lines of the user's, what a default line ignores is rejected.** -/
theorem rejects_default (hline : line ∈ defaultLines) (hvalid : reading.valid line = true)
    (hverdict : reading.verdict line names isDirectory = some .ignored) :
    reading.Rejects [] names isDirectory := by
  have hmem : line ∈ (reading.lines []).reverse := by
    simpa [lines, hvalid] using hline
  rw [rejects_iff]
  have hsome : ((reading.lines []).reverse.findSome? fun line =>
      reading.verdict line names isDirectory).isSome = true :=
    List.findSome?_isSome_iff.mpr ⟨line, hmem, by rw [hverdict]; rfl⟩
  obtain ⟨verdict, hsome⟩ := Option.isSome_iff_exists.mp hsome
  -- The line that decides is a default one, and so it does not keep.
  obtain ⟨last, hlast, hdecides⟩ := List.exists_of_findSome?_eq_some hsome
  have hdefault : last ∈ defaultLines := by
    rw [List.mem_reverse, lines, List.append_nil] at hlast
    exact List.mem_of_mem_filter hlast
  have hhead : last.toList.head? ≠ some '!' := fun h => head_of_default hdefault '!' h (by decide)
  cases verdict with
  | ignored => exact hsome
  | kept => exact absurd hdecides (reading.ignores hhead)

/-- **The last line of the user's takes back what a default one ignores**, behind an exclamation
mark. -/
theorem not_rejects_kept (hline : line ∈ defaultLines)
    (hverdict : reading.verdict line names isDirectory = some .ignored) :
    ¬ reading.Rejects (exclude ++ ["!" ++ line]) names isDirectory := by
  obtain ⟨hvalid, hkept⟩ := reading.keeps (head_of_default hline) hverdict
  have hlines : (reading.lines (exclude ++ ["!" ++ line])).reverse =
      ("!" ++ line) :: (reading.lines exclude).reverse := by
    simp [lines, List.filter_append, hvalid]
  rw [rejects_iff, hlines, List.findSome?_cons, hkept]
  exact fun h => Verdict.noConfusion (Option.some.inj h)

end LineReading

end IgnoreLibrary

end ScopeLint
