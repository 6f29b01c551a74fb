-- Tokens: what a piece of the query is, and the line on which it starts.
import SelectQuery.Text.Quoted
import SelectQuery.Token.Keyword
import SelectQuery.Token.Mark

namespace SelectQuery

/-! ## Kinds -/

/-- What a token is, with its content. -/
inductive Token.Kind where
  /-- A reserved word. -/
  | keyword (keyword : Keyword)
  /-- A word that is not reserved, in its own letter case. -/
  | name (name : String)
  /-- A whole number. -/
  | number (value : Int64)
  /-- A string with its escapes resolved. -/
  | string (value : String)
  /-- A punctuation mark. -/
  | mark (mark : Mark)
  /-- The end of the query. -/
  | endOfInput
  deriving DecidableEq, Repr

/-- A token: its kind and the line on which it starts, counted from 1. -/
structure Token where
  kind : Token.Kind
  line : Nat
  deriving DecidableEq, Repr

namespace Token.Kind

/-- The name of the kind in listings. -/
def label : Kind → String
  | keyword k => k.spelling
  | name _ => "NAME"
  | number _ => "NUMBER"
  | string _ => "STRING"
  | mark m => m.label
  | endOfInput => "END"

/-- The content as a listing shows it: numbers in decimal, strings quoted. -/
def content? : Kind → Option String
  | name n => some n
  | number n => some (toString n.toInt)
  | string s => some (quoted s)
  | _ => none

/-- The kind on its own: its label, and its content in parentheses. -/
def display (kind : Kind) : String :=
  match kind.content? with
  | some content => kind.label ++ "(" ++ content ++ ")"
  | none => kind.label

/-- The kind as a message names it. -/
def describe : Kind → String
  | endOfInput => "end of input"
  | kind => kind.display

/-- The kind is a reserved word. -/
def isKeyword : Kind → Bool
  | keyword _ => true
  | _ => false

/-- The kind is the end of the query. -/
def isEnd : Kind → Bool
  | endOfInput => true
  | _ => false

theorem isEnd_iff (kind : Kind) : kind.isEnd = true ↔ kind = endOfInput := by
  cases kind <;> simp [isEnd]

end Token.Kind

/-- The token is the end of the query. -/
def Token.isEnd (token : Token) : Bool :=
  token.kind.isEnd

end SelectQuery
