-- Statements as trees of JSON. Every object says by its fields what it stands
-- for, and has its keys in alphabetical order.
import SelectQuery.Json.Basic
import SelectQuery.Statement.Basic

namespace SelectQuery

/-- The tree of a name. -/
def nameTree (name : String) : Json :=
  .object [("type", .string "name"), ("value", .string name)]

/-- The tree of a column. -/
def Column.tree : Column → Json
  | star => .object [("type", .string "star")]
  | name n => nameTree n
  | call function argument =>
    .object [("arg", nameTree argument), ("name", .string function), ("type", .string "call")]

/-- The tree of a column list. -/
def Column.listTree (columns : List Column) : Json :=
  .array (columns.map tree)

/-- The tree of a value. -/
def Value.tree : Value → Json
  | number n => .object [("type", .string "literal"), ("value", .number n.toInt)]
  | string s => .object [("type", .string "literal"), ("value", .string s)]
  | name n => nameTree n

/-- The tree of a condition. -/
def Condition.tree : Condition → Json
  | value v => v.tree
  | binary op left right =>
    .object [("args", .array [left.tree, right.tree]), ("op", .string op.symbol)]

namespace Statement

/-- The tree of a statement. A clause that is absent has no field. -/
def tree (statement : Statement) : Json :=
  .object
    ([("columns", Column.listTree statement.columns)]
      ++ (statement.condition.map fun c => ("condition", c.tree)).toList
      ++ [("index", nameTree statement.table)]
      ++ (statement.limit.map fun n => ("limit", .number n.toInt)).toList
      ++ (statement.orderBy.map fun cs => ("order_by", Column.listTree cs)).toList
      ++ [("type", .string "select")])

/-- The tree as text on one line. -/
def json (statement : Statement) : String :=
  statement.tree.compact

/-- The tree as text with every item on a line of its own. -/
def indentedJson (statement : Statement) : String :=
  statement.tree.indented

end Statement

end SelectQuery
