-- What the program answers to its arguments and its standard input.
import SelectQuery.Command.Check
import SelectQuery.Command.Help
import SelectQuery.Command.Reference
import SelectQuery.Listing

namespace SelectQuery

namespace Command

/-! ## Input and output -/

/-- The standard input. -/
inductive Input where
  /-- A terminal, from which no query is read. -/
  | terminal
  /-- All bytes of a pipe or file. -/
  | bytes (content : ByteArray)

/-- What the program writes, and its exit code. -/
structure Response where
  exitCode : Nat
  output : String
  errors : String
  deriving DecidableEq, Repr

namespace Response

/-- A success with its output. -/
def success (output : String) : Response :=
  { exitCode := 0, output, errors := "" }

/-- A command without a result. -/
def failure (failure : Failure) : Response :=
  { exitCode := 1, output := "", errors := failure.message ++ "\n" }

/-- A mistake in the arguments. -/
def misuse (misuse : Misuse) : Response :=
  { exitCode := 2
    output := ""
    errors := "error: " ++ misuse.message ++ "\n\n" ++ Scope.usage .program
      ++ "\n\nFor more information, try '--help'.\n" }

end Response

/-! ## Commands -/

/-- The query of a command: the given one, or else all of the input. -/
def queryText (given : Option String) (input : Input) : Except Failure String :=
  match given, input with
  | some query, _ => .ok query
  | none, .terminal => .error .noInput
  | none, .bytes content =>
    match String.fromUTF8? content with
    | some query => .ok query
    | none => .error .notUtf8

/-- The lines of a verdict. -/
def verdictText (pretty : Bool) : Verdict → String
  | .valid => "Syntax is valid"
  | .tree json => if pretty then json.indented else json.compact

/-- What a command prints. -/
def Invocation.output (invocation : Invocation) (input : Input) : Except Failure String := do
  let given := invocation.given
  match invocation.name with
  | .parse =>
    let query ← queryText given.query input
    let verdict ← SelectQuery.check query false
    pure (verdictText (Flag.pretty ∈ given.flags) verdict ++ "\n")
  | .check =>
    let query ← queryText given.query input
    let verdict ← SelectQuery.check query true
    pure (verdictText false verdict ++ "\n")
  | .tokens =>
    let query ← queryText given.query input
    pure (String.join ((Listing.ofText query).lines.map (· ++ "\n")))
  | .grammar => pure grammarReference

/-- The command reads the standard input. -/
def Invocation.readsInput (invocation : Invocation) : Bool :=
  invocation.name.takesQuery && invocation.given.query.isNone

/-- The response to the arguments and the standard input. -/
def respond (arguments : List String) (input : Input) : Response :=
  match read arguments with
  | .error .version => .success (versionText ++ "\n")
  | .error (.help scope) => .success (scope.helpText ++ "\n")
  | .error (.misuse misuse) => .misuse misuse
  | .ok invocation =>
    match invocation.output input with
    | .ok output => .success output
    | .error failure => .failure failure

/-- The arguments ask for something that depends on the standard input. -/
def readsInput (arguments : List String) : Bool :=
  match read arguments with
  | .ok invocation => invocation.readsInput
  | .error _ => false

end Command

end SelectQuery
