-- Statements: the columns to select, the table, and the clauses after it. A
-- later clause takes the place of an earlier one of its kind.
import SelectQuery.Statement.Column
import SelectQuery.Statement.Condition

namespace SelectQuery

/-! ## Statements and clauses -/

/-- A select statement. -/
structure Statement where
  columns : List Column
  table : String
  condition : Option Condition := none
  limit : Option Int64 := none
  orderBy : Option (List Column) := none
  deriving DecidableEq, Repr

/-- A clause after the condition. -/
inductive Clause where
  | limit (count : Int64)
  | orderBy (columns : List Column)
  deriving DecidableEq, Repr

namespace Clause

/-- The clause in a query. -/
def sql : Clause → String
  | limit n => "LIMIT " ++ toString n.toInt
  | orderBy columns => "ORDER BY " ++ Column.listSql columns

/-- The clause can be written in a query. -/
def WellFormed : Clause → Prop
  | limit n => 0 ≤ n
  | orderBy columns => columns ≠ [] ∧ ∀ c ∈ columns, c.WellFormed

instance (clause : Clause) : Decidable clause.WellFormed := by
  cases clause <;> unfold WellFormed <;> infer_instance

end Clause

namespace Statement

/-- Adds a clause; it takes the place of an earlier one of its kind. -/
def apply (statement : Statement) : Clause → Statement
  | .limit n => { statement with limit := some n }
  | .orderBy columns => { statement with orderBy := some columns }

/-- Adds clauses from first to last. -/
def applyAll (statement : Statement) (clauses : List Clause) : Statement :=
  clauses.foldl apply statement

/-- The clauses that stand, in the order in which they are written. -/
def clauses (statement : Statement) : List Clause :=
  (statement.orderBy.map Clause.orderBy).toList ++ (statement.limit.map Clause.limit).toList

/-- The names that the statement refers to, in the order of the query. The
table and the functions are not among them. -/
def names (statement : Statement) : List String :=
  statement.columns.filterMap Column.referredName?
    ++ (statement.condition.map Condition.names).getD []
    ++ (statement.orderBy.getD []).filterMap Column.referredName?

/-! ## Writing -/

/-- The statement as a query. -/
def sql (statement : Statement) : String :=
  "SELECT " ++ Column.listSql statement.columns
    ++ " FROM " ++ statement.table
    ++ (match statement.condition with
      | some condition => " WHERE " ++ condition.sql
      | none => "")
    ++ String.join (statement.clauses.map fun clause => " " ++ clause.sql)

/-- The statement can be written as a query and read back. -/
structure WellFormed (statement : Statement) : Prop where
  columns_ne : statement.columns ≠ []
  columns : ∀ c ∈ statement.columns, c.WellFormed
  table : isName statement.table = true
  condition : ∀ c ∈ statement.condition, c.WellFormed
  clauses : ∀ c ∈ statement.clauses, c.WellFormed

/-! ## Clauses overwrite -/

@[simp]
theorem applyAll_nil (statement : Statement) : statement.applyAll [] = statement := rfl

@[simp]
theorem applyAll_cons (statement : Statement) (clause : Clause) (clauses : List Clause) :
    statement.applyAll (clause :: clauses) = (statement.apply clause).applyAll clauses := rfl

theorem applyAll_append (statement : Statement) (cs ds : List Clause) :
    statement.applyAll (cs ++ ds) = (statement.applyAll cs).applyAll ds := by
  simp [applyAll]

/-- The clauses that stand give a statement back from its core. -/
theorem applyAll_clauses (statement : Statement) :
    { statement with limit := none, orderBy := none }.applyAll statement.clauses = statement := by
  obtain ⟨columns, table, condition, limit, orderBy⟩ := statement
  cases limit <;> cases orderBy <;> rfl

end Statement

end SelectQuery
