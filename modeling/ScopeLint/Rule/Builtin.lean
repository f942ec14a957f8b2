import ScopeLint.Rule.NoUndefined

/-!
# The built-in rules
-/

namespace ScopeLint

/-- The rules that a linter has unless it is given others. -/
def Registry.builtin : Registry := [NoUndefined.rule]

end ScopeLint
