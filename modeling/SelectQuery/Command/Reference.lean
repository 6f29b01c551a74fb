-- The text that explains to users what a query may look like.

namespace SelectQuery

/-- The lines of the grammar reference. -/
def grammarLines : List String :=
  ["SELECTQL GRAMMAR",
   "",
   "A single SELECT statement per query. Keywords are case-insensitive.",
   "",
   "STATEMENT",
   "",
   "  SELECT colspec FROM table [WHERE condition] [LIMIT n | ORDER BY colspec]...",
   "",
   "  Trailing clauses may appear in any order and may repeat; the last LIMIT and",
   "  the last ORDER BY win.",
   "",
   "COLUMNS",
   "",
   "  *                 Every column",
   "  name              A column by name",
   "  fn(name)          Single-argument function application",
   "  a, b, fn(c)       Comma-separated list, order preserved",
   "",
   "CONDITIONS",
   "",
   "  a = 3             Equality",
   "  x AND y           Conjunction",
   "  x OR y            Disjunction",
   "  ( x )             Grouping",
   "",
   "  Precedence, loosest first: OR, AND, =. All group left to right, so",
   "  a=1 AND b=2 OR c=3 means (a=1 AND b=2) OR c=3.",
   "",
   "VALUES",
   "",
   "  42                Integer literal",
   "  'text'            String literal; \\' and \\\\ are the only escapes",
   "  name              Column reference",
   "",
   "OUTPUT",
   "",
   "  selectql parse prints the tree as JSON:",
   "",
   "  \x7b\"type\": \"select\", \"columns\": [...], \"index\": \x7b\"type\": \"name\", \"value\": ...\x7d,",
   "   \"condition\": \x7b...\x7d, \"limit\": n, \"order_by\": [...]\x7d"]

/-- The grammar reference, every line with its line feed. -/
def grammarReference : String :=
  String.join (grammarLines.map (· ++ "\n"))

end SelectQuery
