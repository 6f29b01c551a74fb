-- What is wrong with a piece of text that gives no token, and on which line.

namespace SelectQuery

/-- Why a piece of text gives no token. -/
inductive Diagnostic.Cause where
  /-- A character that starts nothing. -/
  | illegalCharacter (c : Char)
  /-- A quote with no closing quote. -/
  | unterminatedString
  /-- A backslash in a string before a character that needs none. -/
  | invalidEscape (c : Char)
  /-- A number above the largest one, as it is written. -/
  | numberOutOfRange (literal : String)
  deriving DecidableEq, Repr

/-- A problem in the text, with its line counted from 1. -/
structure Diagnostic where
  cause : Diagnostic.Cause
  line : Nat
  deriving DecidableEq, Repr

/-- What the cause is called, without its place. -/
def Diagnostic.Cause.describe : Cause → String
  | illegalCharacter c => "Illegal character '" ++ c.toString ++ "'"
  | unterminatedString => "Unterminated string literal"
  | invalidEscape c => "Invalid escape '\\" ++ c.toString ++ "' in string literal"
  | numberOutOfRange literal => "Integer literal " ++ literal ++ " out of range"

/-- The problem and its line in one sentence. -/
def Diagnostic.message (diagnostic : Diagnostic) : String :=
  diagnostic.cause.describe ++ " at line " ++ toString diagnostic.line

end SelectQuery
