/-!
# Arguments

The arguments of a command are options and operands in any order.  An option has
a long name after two hyphens, a short one after one hyphen, or both.  Options
without a value may share a hyphen, as in `-qv`.  A value follows its option, in
the next argument or in the same: `--format json`, `--format=json`, `-f json`,
`-fjson` and `-f=json` say the same.  After two hyphens alone all arguments are
operands.  No option may be given twice.
-/

namespace ScopeLint

/-- An option of a command. -/
structure CommandOption where
  /-- Its long name. -/
  long : String
  /-- Its short name. -/
  short : Option Char
  /-- Whether it has a value. -/
  takesValue : Bool
  deriving DecidableEq, Repr, Inhabited

/-- Arguments that were read. -/
structure Arguments where
  /-- The long names of the options given, with their values. -/
  options : List (String × String)
  /-- The arguments that belong to no option. -/
  operands : List String
  deriving DecidableEq, Repr, Inhabited

namespace Arguments

/-- Whether an option was given. -/
def has (arguments : Arguments) (name : String) : Bool :=
  arguments.options.any (·.1 == name)

/-- The value of an option. -/
def value? (arguments : Arguments) (name : String) : Option String :=
  (arguments.options.find? (·.1 == name)).map (·.2)

/-- Puts an option before the others. -/
def addOption (name value : String) (arguments : Arguments) : Arguments :=
  { arguments with options := (name, value) :: arguments.options }

/-- Puts an operand before the others. -/
def addOperand (operand : String) (arguments : Arguments) : Arguments :=
  { arguments with operands := operand :: arguments.operands }

/-- What the options in one argument say. -/
structure Cluster where
  /-- The options with their values; flags have none. -/
  given : List (String × String)
  /-- The last option, when its value is still to come. -/
  waiting : Option String

/-- Reads the short names after a hyphen.  The text after an option with a value,
but for an equals sign, is that value. -/
def readCluster (known : List CommandOption) : List Char → Option Cluster
  | [] => some ⟨[], none⟩
  | c :: rest =>
    match known.find? (·.short = some c) with
    | none => none
    | some option =>
      if option.takesValue then
        match rest with
        | [] => some ⟨[], some option.long⟩
        | '=' :: value => some ⟨[(option.long, String.ofList value)], none⟩
        | value => some ⟨[(option.long, String.ofList value)], none⟩
      else
        (readCluster known rest).map fun cluster =>
          { cluster with given := (option.long, "") :: cluster.given }

/-- Reads a long name after two hyphens, with the value after an equals sign. -/
def readLong (known : List CommandOption) (text : List Char) : Option Cluster :=
  let name := String.ofList (text.takeWhile (· ≠ '='))
  match known.find? (·.long = name), text.dropWhile (· ≠ '=') with
  | none, _ => none
  | some option, [] =>
    some (if option.takesValue then ⟨[], some name⟩ else ⟨[(name, "")], none⟩)
  | some option, _ :: value =>
    if option.takesValue then some ⟨[(name, String.ofList value)], none⟩ else none

/-- Whether an argument gives options: it begins with a hyphen and does not end
there. -/
def givesOptions (argument : String) : Bool :=
  match argument.toList with
  | '-' :: _ :: _ => true
  | _ => false

/-- Reads the options in one argument. -/
def readOptions (known : List CommandOption) (argument : String) : Option Cluster :=
  match argument.toList with
  | '-' :: '-' :: name => readLong known name
  | '-' :: names => readCluster known names
  | _ => none

/-- Reads all arguments, where an option may be waiting for its value. -/
def readAll (known : List CommandOption) (waiting : Option String) :
    List String → Option Arguments
  | [] => if waiting.isNone then some ⟨[], []⟩ else none
  | argument :: rest =>
    if givesOptions argument then
      if waiting.isSome then none
      else if argument = "--" then some ⟨[], rest⟩
      else
        match readOptions known argument with
        | none => none
        | some cluster =>
          (readAll known cluster.waiting rest).map fun arguments =>
            cluster.given.foldr (fun (name, value) => addOption name value) arguments
    else
      match waiting with
      | some name => (readAll known none rest).map (addOption name argument)
      | none => (readAll known none rest).map (addOperand argument)

/-- **Reads the arguments of a command** whose options are known; none when they
cannot be read or an option is repeated. -/
def read (known : List CommandOption) (arguments : List String) : Option Arguments :=
  (readAll known none arguments).bind fun found =>
    if (found.options.map (·.1)).Nodup then some found else none

end Arguments

end ScopeLint
