import ScopeLint.Display.Json
import ScopeLint.Display.Problems
import ScopeLint.Display.RuleTable
import ScopeLint.Ignore.Filter
import ScopeLint.Lint.Files
import ScopeLint.Main
import ScopeLint.Proofs.Lint.Once
import ScopeLint.Proofs.Lint.Uses
import ScopeLint.Proofs.ScopeTree.Preorder
import ScopeLint.Rule.Expectation
import ScopeLint.Scope.Inspection
import ScopeLint.Proofs.Outline.Within
import ScopeLint.Proofs.Walk.Openings
import ScopeLint.Proofs.Walk.Bindings
import ScopeLint.Proofs.Analysis.WellFormed
import ScopeLint.Proofs.ScopeTree.InModule
import ScopeLint.Proofs.Walk.InModule
import ScopeLint.Proofs.Lint.SourceTypes
import ScopeLint.Proofs.Text.Written
import ScopeLint.Proofs.Text.Alike
import ScopeLint.Proofs.Text.Positions
import ScopeLint.Proofs.Syntax.Respelled
import ScopeLint.Proofs.Syntax.Faults
import ScopeLint.Proofs.Lint.Places
import ScopeLint.Proofs.Lint.Tester
import ScopeLint.Proofs.Lint.Independence
import ScopeLint.Proofs.Outline.Housed
import ScopeLint.Proofs.ScopeTree.Owners
import ScopeLint.Proofs.Walk.Sites
import ScopeLint.Proofs.Walk.Housing
import ScopeLint.Proofs.Analysis.Definitions
import ScopeLint.Proofs.Syntax.Words
import ScopeLint.Proofs.Lint.Totals
import ScopeLint.Proofs.Command.Verdict
import ScopeLint.Proofs.Command.Coverage
import ScopeLint.Proofs.ScopeTree.Calls
import ScopeLint.Proofs.Lint.Traversal
import ScopeLint.Proofs.Analysis.FirstValues
import ScopeLint.Proofs.Text.Columns
import ScopeLint.Proofs.Analysis.Renaming
import ScopeLint.Proofs.Analysis.Comments
import ScopeLint.Proofs.Analysis.SourceOrder
import ScopeLint.Proofs.Rule.Testing
import ScopeLint.Proofs.Display.Colors
import ScopeLint.Proofs.Config.Saving
import ScopeLint.Proofs.Walk.Touching
import ScopeLint.Proofs.Ignore.Lintable
