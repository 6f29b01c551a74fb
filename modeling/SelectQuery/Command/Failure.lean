-- Why a command gives no result.
import SelectQuery.Grammar.Fault

namespace SelectQuery

/-- Why a command gives no result. -/
inductive Failure where
  /-- The query cannot be read. -/
  | parse (error : ParseError)
  /-- The standard input is not UTF-8. -/
  | notUtf8
  /-- There is no query, neither among the arguments nor on the standard input. -/
  | noInput
  deriving DecidableEq, Repr

namespace Failure

/-- What lies behind the failure, in one sentence. -/
def source? : Failure → Option String
  | parse error => some error.message
  | notUtf8 => some "stream did not contain valid UTF-8"
  | noInput => none

/-- The failure in one sentence. -/
def message : Failure → String
  | parse error => "Parse error: " ++ error.message
  | notUtf8 => "IO error: stream did not contain valid UTF-8"
  | noInput => "No query provided. Pass it as an argument or pipe it to stdin."

end Failure

end SelectQuery
