-- The rules of statements: columns, table, condition, and clauses in any order
-- and as often as they come.
import SelectQuery.Grammar.Condition
import SelectQuery.Statement.Basic

namespace SelectQuery

namespace Grammar

variable {σ : Type} [TokenSource σ]

/-! ## Columns -/

/-- A column: a star, a name, or a function of a name. -/
def column : Rule σ Column := do
  if (← Rule.peek) = .mark .star then
    Rule.skip
    pure .star
  else
    let name ← Rule.takeName .column
    if (← Rule.peek) = .mark .lparen then
      Rule.skip
      let argument ← Rule.takeName .argument
      Rule.takeKind .closingParen (.mark .rparen)
      pure (.call name argument)
    else pure (.name name)

/-- Columns after the first, each after a comma. -/
def moreColumns : Rule σ (List Column) :=
  Rule.repeatAfter (fun kind => if kind = .mark .comma then some () else none) fun _ => column

/-- Columns between commas. A list that does not start with a column is refused
as empty. -/
def columnList : Rule σ (List Column) := do
  if Expectation.column.accepts (← Rule.peek) then
    let first ← column
    let others ← moreColumns
    pure (first :: others)
  else Rule.reject .noColumns

/-! ## Clauses -/

/-- The condition after the keyword of the filter, if that comes next. -/
def filter : Rule σ (Option Condition) := do
  if (← Rule.peek) = .keyword .whereKw then
    Rule.skip
    let filter ← condition
    pure (some filter)
  else pure none

/-- The clauses by the keyword that opens them. -/
inductive Opener where
  | limit
  | order
  deriving DecidableEq, Repr

/-- The clause that a token opens. -/
def Opener.ofKind? : Token.Kind → Option Opener
  | .keyword .limitKw => some limit
  | .keyword .orderKw => some order
  | _ => none

/-- A clause after its first keyword. -/
def clauseAfter : Opener → Rule σ Clause
  | .limit => do
    let count ← Rule.take .limitNumber fun
      | .number n => some n
      | _ => none
    pure (.limit count)
  | .order => do
    Rule.takeKind .byKeyword (.keyword .byKw)
    let columns ← columnList
    pure (.orderBy columns)

/-- All clauses that follow. -/
def clauses : Rule σ (List Clause) :=
  Rule.repeatAfter Opener.ofKind? clauseAfter

/-! ## Statements -/

/-- A statement, whatever comes after it. -/
def statement : Rule σ Statement := do
  Rule.takeKind .selectKeyword (.keyword .selectKw)
  let columns ← columnList
  Rule.takeKind .fromKeyword (.keyword .fromKw)
  let table ← Rule.takeName .tableName
  let condition ← filter
  let clauses ← clauses
  pure (Statement.applyAll { columns, table, condition } clauses)

/-- A statement with which the query ends. -/
def query : Rule σ Statement := do
  let statement ← statement
  Rule.takeKind .endOfInput .endOfInput
  pure statement

end Grammar

end SelectQuery
