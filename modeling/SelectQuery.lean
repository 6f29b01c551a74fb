import SelectQuery.Command.Arguments
import SelectQuery.Command.Check
import SelectQuery.Command.Failure
import SelectQuery.Command.Help
import SelectQuery.Command.Reference
import SelectQuery.Command.Response
import SelectQuery.Grammar.Condition
import SelectQuery.Grammar.Fault
import SelectQuery.Grammar.Rule
import SelectQuery.Grammar.Source
import SelectQuery.Grammar.Statement
import SelectQuery.Json.Basic
import SelectQuery.Json.Text
import SelectQuery.Listing
import SelectQuery.Main
import SelectQuery.Reader
import SelectQuery.Scan.Diagnostic
import SelectQuery.Scan.Scanner
import SelectQuery.Scan.Segment
import SelectQuery.Statement.Basic
import SelectQuery.Statement.Column
import SelectQuery.Statement.Condition
import SelectQuery.Statement.Operator
import SelectQuery.Statement.Tree
import SelectQuery.Statement.Value
import SelectQuery.Text.Cursor
import SelectQuery.Text.Literal
import SelectQuery.Text.Quoted
import SelectQuery.Text.Visible
import SelectQuery.Token.Basic
import SelectQuery.Token.Keyword
import SelectQuery.Token.Mark
import SelectQuery.Token.Word
import SelectQuery.Proofs.Scan.Items
import SelectQuery.Proofs.Scan.Tokenization
import SelectQuery.Proofs.Grammar.Agreement
import SelectQuery.Proofs.Grammar.Phrase
import SelectQuery.Proofs.Grammar.Sentence
import SelectQuery.Proofs.Grammar.Soundness
import SelectQuery.Proofs.Grammar.Completeness
import SelectQuery.Proofs.Grammar.Verdict
import SelectQuery.Proofs.Query.Stream
import SelectQuery.Proofs.Query.Parsing
import SelectQuery.Proofs.Query.Writing
import SelectQuery.Proofs.Scan.Session
import SelectQuery.Proofs.Query.FirstProblem
import SelectQuery.Proofs.Query.Rendering
import SelectQuery.Proofs.Json.Grammar
import SelectQuery.Proofs.Json.Scalar
import SelectQuery.Proofs.Json.Reading
import SelectQuery.Proofs.Json.Decoding
import SelectQuery.Proofs.Grammar.Parentheses
import SelectQuery.Proofs.Query.Brevity
import SelectQuery.Proofs.Session.Scanner
import SelectQuery.Proofs.Session.Reader
import SelectQuery.Proofs.Grammar.Levels
import SelectQuery.Proofs.Scan.Joining
import SelectQuery.Proofs.Session.Literals
import SelectQuery.Proofs.Query.Finality
import SelectQuery.Proofs.Grammar.Openings
import SelectQuery.Proofs.Query.Expectations
import SelectQuery.Proofs.Query.Clauses
import SelectQuery.Proofs.Query.Names
import SelectQuery.Proofs.Scan.Listing
import SelectQuery.Proofs.Scan.Legibility
import SelectQuery.Proofs.Text.Cuts
import SelectQuery.Proofs.Scan.Offsets
import SelectQuery.Proofs.Session.Offsets
