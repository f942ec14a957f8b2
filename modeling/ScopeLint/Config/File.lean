import ScopeLint.Config.Settings
import ScopeLint.Files.FileSystem
import ScopeLint.Toml.Document

/-!
# Settings files

Settings are kept in a document: the plain settings first, then a table with the
severities of the rules.  What writes and reads documents is a parameter, and TOML
documents are one choice of it.
-/

namespace ScopeLint

/-- What writes data as documents, and reads them. -/
structure DocumentFormat where
  /-- The document of some data, unless they cannot be written. -/
  write : ConfigValue → Option String
  /-- The data of a document, unless it is not well formed. -/
  read : String → Option ConfigValue

/-- TOML documents. -/
def DocumentFormat.toml : DocumentFormat where
  write value := (Toml.Document.write? value).map String.ofList
  read text := Toml.Document.read text.toList

namespace Settings

/-! ## The data of settings -/

/-- The data of the plain settings. -/
def plainData (settings : Settings) : List (String × ConfigValue) :=
  [("source_type", .text settings.sourceType.name),
    ("extensions", .list (settings.extensions.map .text)),
    ("exclude", .list (settings.exclude.map .text))]

/-- The data of the severities of rules. -/
def levelData (entries : List (String × Severity)) : List (String × ConfigValue) :=
  entries.map fun e => (e.1, .text e.2.name)

/-- **The data of settings**: a value for each of them. -/
def toValue (settings : Settings) : ConfigValue :=
  .record (settings.plainData ++ [("rules", .record (levelData settings.levels.entries))])

/-! ## Files -/

/-- The settings file of a directory. -/
def fileName : Path := "undeflint.toml"

/-- Why settings cannot be loaded. -/
inductive LoadFault where
  /-- The file cannot be read. -/
  | unreadable (fault : ReadFault)
  /-- The file gives no settings. -/
  | rejected (rejection : Rejection)
  deriving DecidableEq, Repr

/-- Why a file of settings cannot be written. -/
inductive WriteFault where
  /-- There is no document of the settings. -/
  | noDocument
  /-- There is no place for the file. -/
  | noPlace (fault : ReadFault)
  deriving DecidableEq, Repr

/-- The text of a writing failure. -/
def WriteFault.message : WriteFault → String
  | noDocument => "TOML: the settings cannot be written"
  | noPlace fault => fault.message

/-- Why settings cannot be saved. -/
inductive SaveFault where
  /-- A file is there, and it was not asked to be overwritten. -/
  | present (path : Path)
  /-- The file cannot be written. -/
  | unwritable (fault : WriteFault)
  deriving DecidableEq, Repr

/-- The text of a saving failure. -/
def SaveFault.message : SaveFault → String
  | present path => s!"config already exists at {path} (use --force to overwrite)"
  | unwritable fault => fault.message

end Settings

namespace DocumentFormat

open Settings (LoadFault SaveFault)

/-- The settings of a document. -/
def settings (format : DocumentFormat) (text : String) : Except Settings.Rejection Settings :=
  match format.read text with
  | some value => Settings.ofValue .toml value
  | none => .error .malformed

/-- The settings in the file at a path; none when there is no such file. -/
def load (format : DocumentFormat) (files : FileSystem) (path : Path) :
    Except LoadFault (Option Settings) :=
  if files.contains path then
    match files.readText path with
    | .error fault => .error (.unreadable fault)
    | .ok text => ((format.settings text).map some).mapError .rejected
  else .ok none

/-- The files after settings are saved at a path. -/
def save (format : DocumentFormat) (files : FileSystem) (path : Path) (settings : Settings)
    (force : Bool) : Except SaveFault FileSystem :=
  if files.contains path && !force then .error (.present path)
  else
    match format.write settings.toValue with
    | none => .error (.unwritable .noDocument)
    | some text =>
      (files.write path (Utf8.encode text.toList)).mapError fun fault =>
        .unwritable (.noPlace fault)

end DocumentFormat

namespace Settings

/-- The settings in the TOML file at a path; none when there is no such file. -/
def load (files : FileSystem) (path : Path) : Except LoadFault (Option Settings) :=
  DocumentFormat.toml.load files path

/-- The files after settings are saved at a path in a TOML file. -/
def save (files : FileSystem) (path : Path) (settings : Settings) (force : Bool) :
    Except SaveFault FileSystem :=
  DocumentFormat.toml.save files path settings force

end Settings

end ScopeLint
