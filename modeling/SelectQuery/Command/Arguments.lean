-- The words after the program's name: flags, a command, and the command's
-- query. They are read from left to right, and the first mistake, or the first
-- flag that asks for help or the version, settles the matter.

namespace SelectQuery

namespace Command

/-! ## What can be asked for -/

/-- The commands. -/
inductive Name where
  | parse
  | check
  | tokens
  | grammar
  deriving DecidableEq, Repr

namespace Name

/-- Every command once. -/
def all : List Name :=
  [parse, check, tokens, grammar]

/-- The word for a command. -/
def word : Name → String
  | parse => "parse"
  | check => "check"
  | tokens => "tokens"
  | grammar => "grammar"

/-- The command that a word names, in just these letters. -/
def ofWord? (word : String) : Option Name :=
  all.find? (·.word == word)

/-- The command takes a query. -/
def takesQuery : Name → Bool
  | parse => true
  | check => true
  | tokens => true
  | grammar => false

end Name

/-- The flags. -/
inductive Flag where
  | pretty
  | verbose
  | help
  | version
  deriving DecidableEq, Repr

namespace Flag

/-- The name of a flag after two dashes. -/
def long : Flag → String
  | pretty => "pretty"
  | verbose => "verbose"
  | help => "help"
  | version => "version"

/-- The letter of a flag after one dash. -/
def short : Flag → Char
  | pretty => 'p'
  | verbose => 'v'
  | help => 'h'
  | version => 'V'

end Flag

/-- Where a flag stands: before the command, or after it. -/
inductive Scope where
  | program
  | command (name : Name)
  deriving DecidableEq, Repr

/-- The flags that may stand at a place. -/
def Scope.flags : Scope → List Flag
  | program => [.verbose, .help, .version]
  | command .parse => [.pretty, .verbose, .help]
  | command _ => [.verbose, .help]

/-- What is wrong with the words. -/
inductive Misuse where
  | missingCommand
  | unknownCommand (word : String)
  | unknownFlag (flag : String)
  | repeatedFlag (flag : Flag)
  | valueForFlag (flag : Flag)
  | extraWord (word : String)
  deriving DecidableEq, Repr

/-- How the words end without a command to run. -/
inductive Ending where
  /-- They ask for the version. -/
  | version
  /-- They ask for help at a place. -/
  | help (scope : Scope)
  /-- They make a mistake. -/
  | misuse (misuse : Misuse)
  deriving DecidableEq, Repr

/-- What the words after a command give. -/
structure Given where
  flags : List Flag := []
  query : Option String := none
  deriving DecidableEq, Repr

/-- A command to run. -/
structure Invocation where
  name : Name
  given : Given
  deriving DecidableEq, Repr

/-! ## Words -/

/-- A word by its dashes. -/
inductive Word where
  /-- Two dashes alone: every later word is plain. -/
  | separator
  /-- Two dashes and a name, perhaps with a value after an equals sign. -/
  | long (name : String) (value : Option String)
  /-- One dash and letters. -/
  | short (letters : List Char)
  /-- Any other word, a single dash included. -/
  | plain (text : String)
  deriving DecidableEq, Repr

/-- What a word is by its dashes. -/
def Word.ofString (text : String) : Word :=
  match text.toList with
  | ['-', '-'] => separator
  | '-' :: '-' :: cs =>
    long (String.ofList (cs.takeWhile (· != '=')))
      (match cs.dropWhile (· != '=') with
        | [] => none
        | _ :: value => some (String.ofList value))
  | '-' :: c :: cs => short (c :: cs)
  | _ => plain text

/-! ## Flags -/

/-- Adds a flag to those that were given at a place. -/
def addFlag (scope : Scope) (flags : List Flag) (flag : Flag) : Except Ending (List Flag) :=
  if flag = .version then .error .version
  else if flag = .help then .error (.help scope)
  else if flag ∈ flags then .error (.misuse (.repeatedFlag flag))
  else .ok (flag :: flags)

/-- Adds a flag by its name. No flag takes a value. -/
def addLong (scope : Scope) (flags : List Flag) (name : String) (value : Option String) :
    Except Ending (List Flag) :=
  match scope.flags.find? (·.long == name), value with
  | none, _ => .error (.misuse (.unknownFlag ("--" ++ name)))
  | some flag, some _ => .error (.misuse (.valueForFlag flag))
  | some flag, none => addFlag scope flags flag

/-- Adds a flag by its letter. -/
def addShort (scope : Scope) (flags : List Flag) (letter : Char) : Except Ending (List Flag) :=
  match scope.flags.find? (·.short == letter) with
  | none => .error (.misuse (.unknownFlag ("-" ++ letter.toString)))
  | some flag => addFlag scope flags flag

/-! ## Commands -/

/-- Adds a plain word after a command: its query, if it takes one and has none
yet. -/
def addPlain (name : Name) (given : Given) (text : String) : Except Ending Given :=
  if name.takesQuery ∧ given.query = none then .ok { given with query := some text }
  else .error (.misuse (.extraWord text))

/-- Reads the words after a command. -/
def readGiven (name : Name) (given : Given) : List String → Except Ending Given
  | [] => .ok given
  | word :: words =>
    match Word.ofString word with
    | .separator => words.foldlM (addPlain name) given
    | .long flag value => do
      let flags ← addLong (.command name) given.flags flag value
      readGiven name { given with flags } words
    | .short letters => do
      let flags ← letters.foldlM (addShort (.command name)) given.flags
      readGiven name { given with flags } words
    | .plain text => do
      let given ← addPlain name given text
      readGiven name given words

/-- The word that asks for help in place of a command. -/
def helpWord : String := "help"

/-- Where the word after a request for help points. -/
def helpScope? (word : String) : Option Scope :=
  if word = helpWord then some .program else (Name.ofWord? word).map .command

/-- Reads the words after a request for help: at most one, which is to be
explained. -/
def readHelp : List String → Ending
  | [] => .help .program
  | word :: words =>
    match helpScope? word, words with
    | none, _ => .misuse (.unknownCommand word)
    | some scope, [] => .help scope
    | some _, extra :: _ => .misuse (.unknownCommand extra)

/-- Reads a command and the words after it. -/
def readCommand (word : String) (words : List String) : Except Ending Invocation :=
  if word = helpWord then .error (readHelp words)
  else
    match Name.ofWord? word with
    | none => .error (.misuse (.unknownCommand word))
    | some name => do
      let given ← readGiven name {} words
      pure { name, given }

/-- Reads the words from the first flag on; `flags` were given before. -/
def readFrom (flags : List Flag) : List String → Except Ending Invocation
  | [] => .error (.misuse .missingCommand)
  | word :: words =>
    match Word.ofString word with
    | .separator =>
      match words with
      | [] => .error (.misuse .missingCommand)
      | extra :: _ => .error (.misuse (.extraWord extra))
    | .long flag value => do
      let flags ← addLong .program flags flag value
      readFrom flags words
    | .short letters => do
      let flags ← letters.foldlM (addShort .program) flags
      readFrom flags words
    | .plain text => readCommand text words

/-- The command that the words after the program's name ask for. -/
def read (words : List String) : Except Ending Invocation :=
  readFrom [] words

end Command

end SelectQuery
