/-!
# What can go wrong

The failures of reading, parsing, analysing and configuring, and the text that
each is told by.
-/

namespace ScopeLint

/-- Why a file cannot be read. -/
inductive ReadFault where
  /-- There is no such file. -/
  | notFound
  /-- A directory stands where a file was asked for. -/
  | isDirectory
  /-- A file stands where a directory was asked for. -/
  | notDirectory
  /-- The file is not a UTF-8 text. -/
  | notText
  deriving DecidableEq, Repr

/-- The system's words for a reading failure. -/
def ReadFault.message : ReadFault → String
  | notFound => "No such file or directory (os error 2)"
  | isDirectory => "Is a directory (os error 21)"
  | notDirectory => "Not a directory (os error 20)"
  | notText => "stream did not contain valid UTF-8"

/-- A failure that ends the work on one program or one configuration. -/
inductive Error where
  /-- The parser gave no tree. -/
  | noTree (message : String)
  /-- The program is not well formed at a line and column, both counted from 1. -/
  | badProgram (line column : Nat) (message : String)
  /-- A file could not be read. -/
  | unreadable (message : String)
  /-- A scope tree breaks its rules at a scope. -/
  | malformedScope (scope : Nat) (message : String)
  /-- The configuration names a rule that is not registered. -/
  | unknownRule (name : String)
  /-- A value is not one of those allowed. -/
  | invalidValue (message : String)
  deriving DecidableEq, Repr

/-- The text of a failure. -/
def Error.message : Error → String
  | noTree message => s!"Parse error: {message}"
  | badProgram line column message => s!"Parsing error at {line}:{column}: {message}"
  | unreadable message => s!"IO error: {message}"
  | malformedScope scope message => s!"Malformed scope #{scope}: {message}"
  | unknownRule name => s!"Unknown rule: {name}"
  | invalidValue message => s!"Invalid value: {message}"

end ScopeLint
