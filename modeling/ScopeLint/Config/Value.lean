/-!
# Configuration data

What a configuration is read from, whatever the format it is written in.
-/

namespace ScopeLint

/-- A value in a configuration. -/
inductive ConfigValue where
  /-- No value. -/
  | null
  /-- A text. -/
  | text (s : String)
  /-- A whole number. -/
  | integer (n : Int)
  /-- A date, a time or both, in the usual writing. -/
  | moment (s : String)
  /-- A list of values. -/
  | list (items : List ConfigValue)
  /-- Named values, in the order given. -/
  | record (entries : List (String × ConfigValue))
  /-- A value of a type that no setting has. -/
  | other
  deriving Repr, Inhabited

namespace ConfigValue

/-- The text that a value is. -/
def text? : ConfigValue → Option String
  | text s => some s
  | _ => none

/-- Whether values are named. -/
def isRecord : ConfigValue → Bool
  | record _ => true
  | _ => false

end ConfigValue

/-- A format that configurations are written in. -/
inductive ConfigFormat where
  | json
  | toml
  deriving DecidableEq, Repr, Inhabited

/-- Whether a value says no more than that it is there.  In JSON that is the null;
TOML has none, and an empty list or table stands for it. -/
def ConfigValue.isVoid : ConfigFormat → ConfigValue → Bool
  | .json, .null => true
  | .toml, .list [] | .toml, .record [] => true
  | _, _ => false

end ScopeLint
