-- Checking a query: is it well written, and what is its tree.
import SelectQuery.Command.Failure
import SelectQuery.Reader
import SelectQuery.Statement.Tree

namespace SelectQuery

/-- What a check finds. -/
inductive Verdict where
  /-- The query is well written. -/
  | valid
  /-- The query has this tree. -/
  | tree (json : Json)
  deriving Repr

/-- Reads a query, and gives its tree unless only its syntax is asked for. -/
def check (query : String) (syntaxOnly : Bool) : Except Failure Verdict :=
  match parse query with
  | .error error => .error (.parse error)
  | .ok statement => .ok (if syntaxOnly then .valid else .tree statement.tree)

end SelectQuery
