import ScopeLint.Ignore.Filter
import ScopeLint.Proofs.Ignore.Deciding
import ScopeLint.Proofs.Text.WhiteSpace

/-! # How git's ignore files are read

A builder for a directory holds the patterns of the lines that it has taken in, and a line
decides about a path that the glob of its pattern matches.  Of the patterns that match the last
one decides (`Pattern.decide_ofTexts`), so lines are read as is asked of them
(`IgnoreLibrary.gitignoreReading`), and there is a matcher unless the glob of one of them nests
too deeply (`IgnoreLibrary.gitignore_builds_iff`).

An exclamation mark before a line leaves its glob as it is, unless another such mark, a number
sign or a backslash stands at its head (`Pattern.ofLine?_kept`).
-/

namespace ScopeLint

namespace Pattern

variable {line : List Char} {pattern : Pattern}

/-! ### Signs before a line -/

theorem trim_prefix (line : List Char) : trim line <+: line := by
  unfold trim
  split
  · exact List.prefix_refl _
  · exact WhiteSpace.trimEnd_prefix_self line

/-- A line that says something begins as it did before it was trimmed. -/
theorem head?_trim (h : trim line ≠ []) : (trim line).head? = line.head? := by
  obtain ⟨c, cs, hcons⟩ := List.exists_cons_of_ne_nil h
  obtain ⟨blanks, hline⟩ := trim_prefix line
  rw [hcons] at hline ⊢
  rw [← hline]
  rfl

theorem trim_cons (h : trim line ≠ []) : trim ('!' :: line) = '!' :: trim line := by
  have hsuffix : "\\ ".toList.isSuffixOf ('!' :: line) = "\\ ".toList.isSuffixOf line := by
    rw [Bool.eq_iff_iff, List.isSuffixOf_iff_suffix, List.isSuffixOf_iff_suffix,
      List.suffix_cons_iff]
    refine or_iff_right fun hsame => ?_
    cases hsame
  unfold trim at h ⊢
  rw [hsuffix]
  split
  · rfl
  · rename_i hescape
    rw [if_neg hescape] at h
    have hshows : ¬ WhiteSpace.Blank line := mt WhiteSpace.trimEnd_eq_nil_iff.mpr h
    rw [← List.singleton_append, WhiteSpace.trimEnd_append_of_shows hshows]
    rfl

/-- Only behind an exclamation mark a line keeps what it matches. -/
theorem verdict_of_ofLine? (hhead : line.head? ≠ some '!') (h : ofLine? line = some pattern) :
    pattern.verdict = .ignored := by
  rw [ofLine?] at h
  split at h
  · cases h
  · rename_i hsays
    have hne : trim line ≠ [] := by
      rintro hnil
      simp [isSilent, hnil] at hsays
    obtain ⟨glob, _, rfl⟩ := Option.map_eq_some_iff.mp h
    rw [← head?_trim hne] at hhead
    show (splitHead (trim line)).1 = _
    generalize trim line = text at hhead
    unfold splitHead
    split
    case h_3 | h_4 => exact absurd rfl hhead
    all_goals rfl

/-- **An exclamation mark before a line keeps what the line ignores.** -/
theorem ofLine?_kept (hhead : ∀ c ∈ line.head?, c ∉ ['!', '\\', '#'])
    (h : ofLine? line = some pattern) :
    ofLine? ('!' :: line) = some { pattern with verdict := .kept } := by
  rw [ofLine?] at h
  split at h
  · cases h
  · rename_i hsays
    have hne : trim line ≠ [] := by
      rintro hnil
      simp [isSilent, hnil] at hsays
    have hsays' : isSilent ('!' :: line) = false := by
      simp [isSilent, trim_cons hne]
    rw [ofLine?, hsays', if_neg Bool.false_ne_true, trim_cons hne]
    rw [← head?_trim hne] at hhead
    obtain ⟨c, cs, hcons⟩ := List.exists_cons_of_ne_nil hne
    rw [hcons] at h hhead ⊢
    have hc := hhead c rfl
    simp only [List.mem_cons, List.not_mem_nil, or_false, not_or] at hc
    -- A slash behind the sign anchors the pattern in either case.
    by_cases hslash : c = '/'
    · subst hslash
      simp only [splitHead] at h ⊢
      obtain ⟨glob, hglob, rfl⟩ := Option.map_eq_some_iff.mp h
      rw [hglob]
      rfl
    · have hplain : splitHead (c :: cs) = (.ignored, false, c :: cs) := by
        simp [splitHead, hc, hslash]
      have hkept : splitHead ('!' :: c :: cs) = (.kept, false, c :: cs) := by
        simp [splitHead, hslash]
      rw [hplain] at h
      rw [hkept]
      obtain ⟨glob, hglob, rfl⟩ := Option.map_eq_some_iff.mp h
      simp only [hglob]
      rfl

/-! ### Lines that decide -/

/-- What a line decides about a path, by its pattern. -/
def verdictOf (line path : String) (isDirectory : Bool) : Option Verdict :=
  (ofLine? line.toList).bind fun pattern =>
    if pattern.matchesPath (Utf8.encode path.toList) isDirectory then some pattern.verdict else none

/-- The patterns of lines. -/
def ofTexts (lines : List String) : List Pattern := ofLines (lines.map String.toList)

/-- **Of the patterns of lines the last that matches decides.** -/
theorem decide_ofTexts (lines : List String) (path : String) (isDirectory : Bool) :
    decide (ofTexts lines) (Utf8.encode path.toList) isDirectory =
      lines.reverse.findSome? fun line => verdictOf line path isDirectory := by
  have hreverse : (ofTexts lines).reverse = lines.reverse.filterMap fun line =>
      ofLine? line.toList := by
    rw [ofTexts, ofLines, List.filterMap_map, List.filterMap_reverse]
    rfl
  rw [decide, hreverse]
  induction lines.reverse with
  | nil => rfl
  | cons line rest ih =>
    rw [List.filterMap_cons, List.findSome?_cons, verdictOf]
    cases ofLine? line.toList with
    | none => exact ih
    | some pattern =>
      simp only [List.find?_cons, Option.bind_some]
      cases pattern.matchesPath (Utf8.encode path.toList) isDirectory with
      | true => rfl
      | false => exact ih

end Pattern

/-! ### What is asked of lines -/

/-- The set of the patterns of lines for a directory. -/
def PatternSet.ofTexts (root : Path) (lines : List String) : PatternSet :=
  ⟨root, Pattern.ofTexts lines⟩

namespace PatternSet

variable {root : Path} {lines : List String} {line : String}

theorem addFile_none (set : PatternSet) : addFile none set = set := by
  rw [addFile, Pattern.ofContent, Option.elim_none, List.append_nil]

/-- Whether the glob of a line is well formed, or the line says nothing. -/
def isWellFormed (line : String) : Bool :=
  Pattern.isSilent line.toList || (Pattern.ofLine? line.toList).isSome

theorem addLine_ofTexts (hvalid : isWellFormed line = true) :
    addLine line (ofTexts root lines) = some (ofTexts root (lines ++ [line])) := by
  have hlines : Pattern.ofTexts (lines ++ [line]) =
      Pattern.ofTexts lines ++ (Pattern.ofLine? line.toList).toList := by
    rw [Pattern.ofTexts, List.map_append, Pattern.ofLines, List.filterMap_append]
    cases hline : Pattern.ofLine? line.toList <;> simp [Pattern.ofTexts, Pattern.ofLines, hline]
  rw [addLine, ofTexts, ofTexts, hlines]
  split
  · rename_i hsilent
    have hnone : Pattern.ofLine? line.toList = none := by rw [Pattern.ofLine?, if_pos hsilent]
    rw [hnone, Option.toList_none, List.append_nil]
  · rename_i hsays
    rw [isWellFormed, Bool.or_eq_true, or_iff_right hsays] at hvalid
    obtain ⟨pattern, hpattern⟩ := Option.isSome_iff_exists.mp hvalid
    rw [hpattern]
    rfl

theorem addLine_malformed (set : PatternSet) (hvalid : isWellFormed line = false) :
    addLine line set = none := by
  rw [isWellFormed, Bool.or_eq_false_iff] at hvalid
  have hnone : Pattern.ofLine? line.toList = none := by
    rw [← Option.isNone_iff_eq_none, ← Option.not_isSome, hvalid.2]
    rfl
  rw [addLine, hvalid.1, if_neg Bool.false_ne_true, hnone]
  rfl

/-- What is built from a set is the set. -/
theorem eq_of_build {set matcher : PatternSet} (h : build set = some matcher) : matcher = set := by
  rw [build] at h
  split at h
  · exact (Option.some.inj h).symm
  · cases h

theorem isSome_build (set : PatternSet) : (IgnoreLibrary.gitignore.build set).isSome =
    set.patterns.all (·.glob.depth ≤ Glob.maxDepth) := by
  show (PatternSet.build set).isSome = _
  rw [build]
  cases set.patterns.all (·.glob.depth ≤ Glob.maxDepth) <;> rfl

/-- Malformed lines have no patterns. -/
theorem ofTexts_filter_isWellFormed (lines : List String) :
    Pattern.ofTexts (lines.filter isWellFormed) = Pattern.ofTexts lines := by
  rw [Pattern.ofTexts, Pattern.ofTexts, Pattern.ofLines, Pattern.ofLines, List.filterMap_map,
    List.filterMap_map, List.filterMap_filter]
  refine List.filterMap_congr fun line _ => ?_
  cases hvalid : isWellFormed line with
  | true => rfl
  | false =>
    rw [isWellFormed, Bool.or_eq_false_iff, Option.isSome_eq_false_iff,
      Option.isNone_iff_eq_none] at hvalid
    exact hvalid.2.symm

end PatternSet

/-- **Git's ignore files are read as is asked of lines.** -/
def IgnoreLibrary.gitignoreReading {root : Path} (hroot : root ≠ "") :
    gitignore.LineReading root where
  Holds set lines := set = PatternSet.ofTexts root lines
  valid := PatternSet.isWellFormed
  verdict line names isDirectory := Pattern.verdictOf line (root.seenFrom names) isDirectory
  new := rfl
  no_file := by
    rintro _ lines rfl
    exact PatternSet.addFile_none _
  add_valid := by
    rintro _ lines line rfl hvalid
    exact ⟨_, PatternSet.addLine_ofTexts hvalid, rfl⟩
  add_malformed := by
    rintro _ lines line rfl hvalid
    exact PatternSet.addLine_malformed _ hvalid
  matched := by
    rintro _ lines matcher names isDirectory rfl hbuild hne hnames
    obtain rfl := PatternSet.eq_of_build hbuild
    show PatternSet.verdict? _ _ _ = _
    rw [PatternSet.verdict?, PatternSet.ofTexts, Path.below_joinAll hroot hne hnames]
    exact Pattern.decide_ofTexts lines _ isDirectory
  empty _ _ := rfl
  ignores := by
    intro line names isDirectory hhead hkept
    obtain ⟨pattern, hpattern, hverdict⟩ := Option.bind_eq_some_iff.mp hkept
    rw [Pattern.verdict_of_ofLine? hhead hpattern] at hverdict
    split at hverdict <;> cases hverdict
  keeps := by
    intro line names isDirectory hhead hignored
    obtain ⟨pattern, hpattern, hverdict⟩ := Option.bind_eq_some_iff.mp hignored
    have hkept : Pattern.ofLine? ("!" ++ line).toList = some { pattern with verdict := .kept } := by
      rw [String.toList_append]
      exact Pattern.ofLine?_kept hhead hpattern
    refine ⟨by rw [PatternSet.isWellFormed, hkept]; exact Bool.or_true _, ?_⟩
    rw [Pattern.verdictOf, hkept, Option.bind_some]
    split at hverdict
    · rename_i hmatches
      exact if_pos hmatches
    · cases hverdict

namespace IgnoreLibrary

variable {root : Path} (hroot : root ≠ "") {exclude names : List String} {isDirectory : Bool}

include hroot in
/-- **A filter is built unless a glob nests too deeply**, of the default lines or the user's. -/
theorem gitignore_builds_iff {contentOf? : String → Option (List UInt8)}
    (hgitignore : contentOf? ".gitignore" = none) (hignore : contentOf? ".ignore" = none) :
    gitignore.Builds root contentOf? exclude ↔
      (Pattern.ofTexts (defaultLines ++ exclude)).all (·.glob.depth ≤ Glob.maxDepth) = true := by
  have hholds : gitignore.filterBuilder root contentOf? exclude = PatternSet.ofTexts root _ :=
    (gitignoreReading hroot).holds_filterBuilder hgitignore hignore exclude
  have hlines : (gitignoreReading hroot).lines exclude =
      (defaultLines ++ exclude).filter PatternSet.isWellFormed := rfl
  rw [Builds, hholds, hlines, PatternSet.isSome_build, PatternSet.ofTexts,
    PatternSet.ofTexts_filter_isWellFormed]

/-- **What is rejected is what the last pattern that matches it ignores.** -/
theorem gitignore_rejects_iff : (gitignoreReading hroot).Rejects exclude names isDirectory ↔
    Pattern.decide (Pattern.ofTexts (defaultLines ++ exclude))
      (Utf8.encode (root.seenFrom names).toList) isDirectory = some .ignored := by
  rw [← PatternSet.ofTexts_filter_isWellFormed, Pattern.decide_ofTexts]
  exact (gitignoreReading hroot).rejects_iff

end IgnoreLibrary

end ScopeLint
