import ScopeLint.Error

/-!
# Source types

A program is a classic script, whose declarations at top level live in the
global scope, or a module, whose declarations live in a scope of its own.
-/

namespace ScopeLint.Syntax

/-- How declarations at top level are scoped. -/
inductive SourceType where
  /-- They live in the global scope. -/
  | script
  /-- They live in the scope of the module. -/
  | module
  deriving DecidableEq, Repr, Inhabited

namespace SourceType

/-- The name of a source type. -/
def name : SourceType → String
  | script => "script"
  | module => "module"

/-- The source type of a name in any case.  Lowering ASCII letters is enough: no
other letter lowers to letters of the two names alone. -/
def ofName (text : String) : Except Error SourceType :=
  match text.toLower with
  | "script" => .ok script
  | "module" => .ok module
  | _ => .error (.invalidValue s!"unknown source type '{text}'")

/-- The source type of a name that is written exactly. -/
def ofExactName? : String → Option SourceType
  | "script" => some script
  | "module" => some module
  | _ => none

/-- The source type of a file by the extension of its path, where that decides. -/
def ofExtension (extension : Option String) (fallback : SourceType) : SourceType :=
  match extension with
  | some "mjs" => module
  | some "cjs" => script
  | _ => fallback

end SourceType

end ScopeLint.Syntax
