import ScopeLint.Error

/-!
# Severities

How seriously the reports of a rule are taken.
-/

namespace ScopeLint

/-- How seriously reports are taken. -/
inductive Severity where
  /-- Not at all: the rule does not run. -/
  | off
  | warn
  | error
  deriving DecidableEq, Repr, Inhabited

namespace Severity

/-- The name of a severity. -/
def name : Severity → String
  | off => "off"
  | warn => "warn"
  | error => "error"

/-- Whether a rule of this severity runs. -/
def isEnabled (s : Severity) : Bool := s != off

/-- The severity of a name or level in any case.  Lowering ASCII letters is
enough: no other letter lowers to letters of these names alone. -/
def ofName (text : String) : Except Error Severity :=
  match text.toLower with
  | "off" | "0" => .ok off
  | "warn" | "warning" | "1" => .ok warn
  | "error" | "2" => .ok error
  | _ => .error (.invalidValue s!"unknown severity '{text}'")

end Severity

end ScopeLint
