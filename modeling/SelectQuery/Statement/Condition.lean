-- Conditions: values joined by operators. Parentheses leave no node behind, so
-- a condition is written with only those that its shape needs.
import SelectQuery.Statement.Operator
import SelectQuery.Statement.Value

namespace SelectQuery

/-- A condition: a value, or an operator with its two operands. -/
inductive Condition where
  | value (value : Value)
  | binary (op : Operator) (left right : Condition)
  deriving DecidableEq, Repr

namespace Condition

/-! ## Questions -/

/-- The operands, in the order of the query; a value has none. -/
def operands : Condition → List Condition
  | value _ => []
  | binary _ left right => [left, right]

/-- The number of operators on the longest way down. -/
def depth : Condition → Nat
  | value _ => 0
  | binary _ left right => 1 + max left.depth right.depth

/-- The values, from left to right. -/
def values : Condition → List Value
  | value v => [v]
  | binary _ left right => left.values ++ right.values

/-- The names among the values, from left to right. -/
def names (condition : Condition) : List String :=
  condition.values.filterMap Value.name?

/-- All values can be written in a query. -/
def WellFormed (condition : Condition) : Prop :=
  ∀ v ∈ condition.values, v.WellFormed

instance (condition : Condition) : Decidable condition.WellFormed :=
  inferInstanceAs (Decidable (∀ v ∈ condition.values, v.WellFormed))

/-! ## Parentheses -/

/-- The side of an operator on which an operand stands. -/
inductive Side where
  | left
  | right
  deriving DecidableEq, Repr

/-- An operand needs parentheses under `parent`: its own operator binds looser,
or, on the right side, no tighter. -/
def needsParens (side : Side) (parent : Operator) : Condition → Bool
  | value _ => false
  | binary op _ _ =>
    match side with
    | .left => op.precedence < parent.precedence
    | .right => op.precedence ≤ parent.precedence

/-! ## Writing -/

/-- The condition in a query, with only the parentheses it needs. -/
def sql : Condition → String
  | value v => v.sql
  | binary op left right =>
    (if left.needsParens .left op then "(" ++ left.sql ++ ")" else left.sql)
      ++ " " ++ op.spelling ++ " "
      ++ (if right.needsParens .right op then "(" ++ right.sql ++ ")" else right.sql)

end Condition

end SelectQuery
