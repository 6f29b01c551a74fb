-- The texts that explain the command line, and what is said of a mistake in it.
import SelectQuery.Command.Arguments

namespace SelectQuery

namespace Command

/-- The name and version of the program. -/
def versionText : String := "selectql 0.1.0"

/-- What a command does. -/
def Name.about : Name → String
  | parse => "Parse a query and print its syntax tree as JSON"
  | check => "Only validate syntax"
  | tokens => "Print the tokens of a query, one per line"
  | grammar => "Show the accepted grammar"

/-- What a flag does. -/
def Flag.about : Flag → String
  | pretty => "Pretty-print the output"
  | verbose => "Log lexer and parser activity to stderr"
  | help => "Print help"
  | version => "Print version"

/-- A text with spaces after it, up to a width. -/
def padRight (width : Nat) (text : String) : String :=
  text.pushn ' ' (width - text.length)

/-- The help line of a word in the place of a command. -/
def commandLine (word about : String) : String :=
  "  " ++ padRight 8 word ++ " " ++ about

/-- The help line of a flag. -/
def Flag.helpLine (flag : Flag) : String :=
  "  -" ++ flag.short.toString ++ ", --" ++ padRight 8 flag.long ++ " " ++ flag.about

/-- How the program is called at a place. -/
def Scope.usage : Scope → String
  | program => "Usage: selectql [OPTIONS] <COMMAND>"
  | command name =>
    "Usage: selectql " ++ name.word ++ " [OPTIONS]"
      ++ (if name.takesQuery then " [QUERY]" else "")

/-- The lines that explain a place of the command line. -/
def Scope.helpLines (scope : Scope) : List String :=
  match scope with
  | program =>
    ["selectql - parse restricted SQL SELECT statements into a JSON syntax tree",
     "", scope.usage, "", "Commands:"]
      ++ Name.all.map (fun name => commandLine name.word name.about)
      ++ [commandLine helpWord "Print this message or the help of the given subcommand(s)"]
      ++ ["", "Options:"] ++ scope.flags.map Flag.helpLine
  | command name =>
    [name.about, "", scope.usage]
      ++ (if name.takesQuery then
        ["", "Arguments:", "  [QUERY]  The query (reads from stdin if not provided)"] else [])
      ++ ["", "Options:"] ++ scope.flags.map Flag.helpLine

/-- The help at a place of the command line. -/
def Scope.helpText (scope : Scope) : String :=
  "\n".intercalate scope.helpLines

/-- A mistake in one sentence. -/
def Misuse.message : Misuse → String
  | missingCommand => "a subcommand is required"
  | unknownCommand word => "unrecognized subcommand '" ++ word ++ "'"
  | unknownFlag flag => "unexpected argument '" ++ flag ++ "' found"
  | repeatedFlag flag => "the argument '--" ++ flag.long ++ "' cannot be used multiple times"
  | valueForFlag flag => "unexpected value for '--" ++ flag.long ++ "'; no more were expected"
  | extraWord word => "unexpected argument '" ++ word ++ "' found"

end Command

end SelectQuery
