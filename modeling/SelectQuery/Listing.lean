-- The tokens of a query as lines of text, and after them its problems.
import SelectQuery.Scan.Scanner

namespace SelectQuery

/-- All tokens of a query and all its problems. -/
structure Listing where
  tokens : List Token
  diagnostics : List Diagnostic
  deriving DecidableEq, Repr

/-- A text with spaces before it, up to a width. -/
def alignRight (width : Nat) (text : String) : String :=
  "".pushn ' ' (width - text.length) ++ text

/-- The line of a token: where it starts, what it is, and its content. -/
def Token.listingLine (token : Token) : String :=
  alignRight 4 (toString token.line) ++ " " ++ token.kind.label
    ++ (match token.kind.content? with
      | some content => " " ++ content
      | none => "")

/-- The line of a problem. -/
def Diagnostic.listingLine (diagnostic : Diagnostic) : String :=
  "error: " ++ diagnostic.message

namespace Listing

/-- The listing of a query. -/
def ofText (text : String) : Listing :=
  let (tokens, diagnostics) := tokenize text
  { tokens, diagnostics }

/-- One line for each token, then one for each problem. -/
def lines (listing : Listing) : List String :=
  listing.tokens.map Token.listingLine ++ listing.diagnostics.map Diagnostic.listingLine

theorem length_lines (listing : Listing) :
    listing.lines.length = listing.tokens.length + listing.diagnostics.length := by
  simp [lines]

end Listing

end SelectQuery
