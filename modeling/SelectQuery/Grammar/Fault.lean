-- Why a query cannot be read: what was expected, what stood there, and where.
import SelectQuery.Scan.Diagnostic
import SelectQuery.Token.Basic

namespace SelectQuery

/-! ## What the grammar can expect -/

/-- What the grammar expects at a place. -/
inductive Expectation where
  | selectKeyword
  | fromKeyword
  | tableName
  | column
  | argument
  | closingParen
  | limitNumber
  | byKeyword
  | value
  | endOfInput
  deriving DecidableEq, Repr

namespace Expectation

/-- The expectation as a message names it. -/
def describe : Expectation → String
  | selectKeyword => "SELECT"
  | fromKeyword => "FROM"
  | tableName => "table name"
  | column => "column specification"
  | argument => "function argument"
  | closingParen => "')'"
  | limitNumber => "integer after LIMIT"
  | byKeyword => "BY"
  | value => "value or '('"
  | endOfInput => "end of input"

/-- The kinds of tokens that meet the expectation. -/
def accepts : Expectation → Token.Kind → Bool
  | selectKeyword, .keyword .selectKw => true
  | fromKeyword, .keyword .fromKw => true
  | tableName, .name _ => true
  | column, .mark .star => true
  | column, .name _ => true
  | argument, .name _ => true
  | closingParen, .mark .rparen => true
  | limitNumber, .number _ => true
  | byKeyword, .keyword .byKw => true
  | value, .number _ => true
  | value, .string _ => true
  | value, .name _ => true
  | value, .mark .lparen => true
  | endOfInput, .endOfInput => true
  | _, _ => false

theorem describe_inj {e f : Expectation} (h : e.describe = f.describe) : e = f := by
  revert h
  cases e <;> cases f <;> decide

end Expectation

/-! ## Faults and errors -/

/-- Why a rule of the grammar does not match, with the token where it fails. -/
inductive Fault where
  /-- The token does not meet the expectation. -/
  | unexpected (expected : Expectation) (found : Token)
  /-- A column list does not start with a column. -/
  | noColumns (found : Token)
  deriving DecidableEq, Repr

/-- The token where a rule fails. -/
def Fault.found : Fault → Token
  | unexpected _ found => found
  | noColumns found => found

/-- Why a query cannot be read, in the words of the report. -/
inductive ParseError where
  /-- Pieces of the text give no token. -/
  | lexical (diagnostics : List Diagnostic)
  /-- A token stands where something else was expected. -/
  | unexpected (expected found : String) (line : Nat)
  /-- A column list does not start with a column. -/
  | emptyColumns (found : String) (line : Nat)
  deriving DecidableEq, Repr

namespace ParseError

/-- The report of a fault. -/
def ofFault : Fault → ParseError
  | .unexpected expected found => unexpected expected.describe found.kind.describe found.line
  | .noColumns found => emptyColumns found.kind.describe found.line

/-- The line of the first problem, if there is one. -/
def line? : ParseError → Option Nat
  | lexical diagnostics => diagnostics.head?.map Diagnostic.line
  | unexpected _ _ line => some line
  | emptyColumns _ line => some line

/-- The tokens, and not the text, are at fault. -/
def isSyntax : ParseError → Bool
  | lexical _ => false
  | unexpected _ _ _ => true
  | emptyColumns _ _ => true

/-- The error in one sentence. -/
def message : ParseError → String
  | lexical diagnostics => "Lexical error: " ++ "; ".intercalate (diagnostics.map Diagnostic.message)
  | unexpected expected found line =>
    "Syntax error at line " ++ toString line ++ ": expected " ++ expected ++ ", got " ++ found
  | emptyColumns found line =>
    "Syntax error at line " ++ toString line ++ ": empty column list before " ++ found

theorem line?_ofFault (fault : Fault) : (ofFault fault).line? = some fault.found.line := by
  cases fault <;> rfl

end ParseError

end SelectQuery
