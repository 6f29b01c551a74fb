-- The reader: a scanner and the one token that it has read ahead. Statements
-- and conditions are read from it one after another. What the scanner had to
-- skip on the way counts before whatever the grammar made of the rest.
import SelectQuery.Grammar.Statement
import SelectQuery.Scan.Scanner

namespace SelectQuery

/-- A scanner with the next token read ahead. -/
structure Reader where
  scanner : Scanner
  current : Token
  deriving DecidableEq, Repr

namespace Reader

/-! ## Tokens -/

/-- Reads the first token ahead. -/
def ofScanner (scanner : Scanner) : Reader :=
  let (token, scanner) := scanner.nextToken
  { scanner := scanner, current := token }

/-- Moves on to the next token. -/
def advance (reader : Reader) : Reader :=
  ofScanner reader.scanner

/-- A bound on the tokens before the end of the query. -/
def remaining (reader : Reader) : Nat :=
  reader.scanner.cursor.rest.length + if reader.current.isEnd then 0 else 1

theorem remaining_ofScanner_le (scanner : Scanner) :
    (ofScanner scanner).remaining ≤ scanner.cursor.rest.length := by
  change scanner.nextToken.2.cursor.rest.length
    + (if scanner.nextToken.1.isEnd then 0 else 1) ≤ _
  split
  · exact Scanner.length_rest_nextToken_le scanner
  · next h => exact Scanner.length_rest_nextToken_lt (by simpa using h)

instance : TokenSource Reader where
  current := Reader.current
  advance := advance
  remaining := remaining
  remaining_advance_le reader :=
    Nat.le_trans (remaining_ofScanner_le reader.scanner) (Nat.le_add_right _ _)
  remaining_advance_lt reader h := by
    refine Nat.lt_of_le_of_lt (remaining_ofScanner_le reader.scanner) ?_
    simp [remaining, h]

/-! ## Reading -/

/-- What a rule reads, with its fault as a report. -/
def readRule {α : Type} (rule : Rule Reader α) (reader : Reader) : Except ParseError α × Reader :=
  let (outcome, reader) := rule.run reader
  (outcome.mapError ParseError.ofFault, reader)

/-- Reads a statement, whatever comes after it, and leaves recorded problems
alone. -/
def readStatement (reader : Reader) : Except ParseError Statement × Reader :=
  reader.readRule Grammar.statement

/-- Reads a condition, whatever comes after it, and leaves recorded problems
alone. -/
def readCondition (reader : Reader) : Except ParseError Condition × Reader :=
  reader.readRule Grammar.condition

/-- Reads a statement with which the query ends. If the scanner has recorded
problems by then, they are taken as the error. -/
def readQuery (reader : Reader) : Except ParseError Statement × Reader :=
  let (outcome, reader) := reader.readRule Grammar.query
  match reader.scanner.takeDiagnostics with
  | ([], _) => (outcome, reader)
  | (diagnostics, scanner) => (.error (.lexical diagnostics), { reader with scanner := scanner })

end Reader

/-- The statement of a query. -/
def parse (text : String) : Except ParseError Statement :=
  (Reader.ofScanner (Scanner.ofText text)).readQuery.1

/-! ## Comparing readings -/

/-- Two queries read alike: as equal statements, or with equal errors. -/
def readAlike (a b : String) : Bool :=
  match parse a, parse b with
  | .ok s, .ok t => s = t
  | .error e, .error f => e = f
  | _, _ => false

/-- What becomes of a statement that is written and read again. -/
inductive Rereading where
  | same
  | different
  | failed (error : ParseError)
  deriving DecidableEq, Repr

/-- Writes a statement as a query and reads it again. -/
def Statement.reread (statement : Statement) : Rereading :=
  match parse statement.sql with
  | .ok again => if again = statement then .same else .different
  | .error error => .failed error

end SelectQuery
