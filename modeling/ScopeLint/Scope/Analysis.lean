import ScopeLint.Scope.Walk
import ScopeLint.Syntax.Program

/-!
# The scopes of a program
-/

namespace ScopeLint

open Syntax

/-- The outline of a whole program: that of its root's children, inside the
module's scope when it is a module. -/
def Syntax.Program.outline (program : Program) : List Entry :=
  let entries := program.root.outline .contents
  match program.sourceType with
  | .script => entries
  | .module => [.scope .module program.root.label.span entries]

/-- **The scope tree of a program.** -/
def analyze (program : Program) : ScopeTree :=
  ((Walk.start program.root.label.span).entries program.source program.outline).finish

end ScopeLint
