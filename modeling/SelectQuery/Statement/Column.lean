-- The columns that a statement selects or orders by.
import SelectQuery.Token.Word

namespace SelectQuery

/-- An entry of a column list. -/
inductive Column where
  /-- Every column. -/
  | star
  /-- A column by its name. -/
  | name (name : String)
  /-- A function of one column. -/
  | call (function argument : String)
  deriving DecidableEq, Repr

namespace Column

/-- The column in a query. -/
def sql : Column → String
  | star => "*"
  | name n => n
  | call function argument => function ++ "(" ++ argument ++ ")"

/-- The column that the entry refers to by name. -/
def referredName? : Column → Option String
  | star => none
  | name n => some n
  | call _ argument => some argument

/-- All names of the column can be written in a query. -/
def WellFormed : Column → Prop
  | star => True
  | name n => isName n = true
  | call function argument => isName function = true ∧ isName argument = true

instance (column : Column) : Decidable column.WellFormed := by
  cases column <;> unfold WellFormed <;> infer_instance

/-- A column list in a query. -/
def listSql (columns : List Column) : String :=
  ", ".intercalate (columns.map sql)

end Column

end SelectQuery
