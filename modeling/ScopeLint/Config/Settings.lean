import ScopeLint.Config.RuleLevels
import ScopeLint.Config.Value
import ScopeLint.Rule.Basic
import ScopeLint.Syntax.SourceType

/-!
# Settings

What a user can configure, and how it is read from configuration data: every
setting may be left out and then keeps its default, and names of no setting are
passed over.
-/

namespace ScopeLint

open Syntax (SourceType)

/-- What a user can configure. -/
structure Settings where
  /-- How files are parsed whose extension does not say. -/
  sourceType : SourceType
  /-- The extensions of the files to lint. -/
  extensions : List String
  /-- Patterns of the files not to lint. -/
  exclude : List String
  /-- The severity of each rule. -/
  levels : RuleLevels
  deriving DecidableEq

namespace Settings

/-- The settings when nothing is configured. -/
def default : Settings where
  sourceType := .module
  extensions := ["js", "mjs", "cjs", "jsx"]
  exclude := []
  levels := .single "no-undefined" .error

instance : Inhabited Settings := ⟨default⟩

/-- The severity of a rule; a rule that is not named is off. -/
def severity (settings : Settings) (rule : String) : Severity :=
  (settings.levels.severity? rule).getD .off

/-- Whether files of an extension are linted. -/
def handles (settings : Settings) (extension : String) : Bool :=
  settings.extensions.contains extension

/-- Refuses settings that name a rule which is not registered; of several the
first by name is told. -/
def validate (settings : Settings) (registry : Registry) : Except Error Unit :=
  match settings.levels.names.find? fun name => !registry.knows name with
  | some name => .error (.unknownRule name)
  | none => .ok ()

/-! ## Reading -/

/-- Why configuration data gives no settings. -/
inductive Rejection where
  /-- The data is not well formed, or a value has the wrong type. -/
  | malformed
  /-- A value of the right type is none of those allowed. -/
  | notAllowed (e : Error)
  deriving DecidableEq, Repr

/-- Reads a text. -/
def readText : ConfigValue → Except Rejection String
  | .text s => .ok s
  | _ => .error .malformed

/-- Reads a list of texts. -/
def readTexts : ConfigValue → Except Rejection (List String)
  | .list items => items.mapM readText
  | _ => .error .malformed

/-- Reads a source type: its exact name, alone or as the one name of a void
value. -/
def readSourceType (format : ConfigFormat) : ConfigValue → Except Rejection SourceType
  | .text s => (SourceType.ofExactName? s).elim (.error .malformed) .ok
  | .record [(s, value)] =>
    if value.isVoid format then (SourceType.ofExactName? s).elim (.error .malformed) .ok
    else .error .malformed
  | _ => .error .malformed

/-- Reads a severity: a name or level, written as a text or as a number below
256. -/
def readSeverity : ConfigValue → Except Rejection Severity
  | .text s => (Severity.ofName s).mapError .notAllowed
  | .integer n =>
    if 0 ≤ n ∧ n < 256 then (Severity.ofName (toString n)).mapError .notAllowed
    else .error .malformed
  | _ => .error .malformed

/-- Reads the severities of rules.  A moment holds its writing in place of a
severity. -/
def readLevels : ConfigValue → Except Rejection RuleLevels
  | .record entries =>
    entries.foldlM (fun levels (name, value) => return levels.insert name (← readSeverity value))
      .empty
  | .moment s => (readSeverity (.text s)).map (.single "moment")
  | _ => .error .malformed

/-- Reads one named value into the settings. -/
def readEntry (format : ConfigFormat) (settings : Settings) :
    String × ConfigValue → Except Rejection Settings
  | ("source_type", value) => return { settings with sourceType := ← readSourceType format value }
  | ("extensions", value) => return { settings with extensions := ← readTexts value }
  | ("exclude", value) => return { settings with exclude := ← readTexts value }
  | ("rules", value) => return { settings with levels := ← readLevels value }
  | _ => .ok settings

/-- The names of the settings, in the order in which a list gives their values. -/
def entryNames : List String := ["source_type", "extensions", "exclude", "rules"]

/-- **The settings of configuration data**, given by names or in a list. -/
def ofValue (format : ConfigFormat) : ConfigValue → Except Rejection Settings
  | .record entries => entries.foldlM (readEntry format) default
  | .list items => do
    let settings ← (entryNames.zip items).foldlM (readEntry format) default
    if items.length ≤ entryNames.length then .ok settings else .error .malformed
  | _ => .error .malformed

end Settings

end ScopeLint
