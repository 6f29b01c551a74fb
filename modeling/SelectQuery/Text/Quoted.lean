-- A text between double quotes on one line: what would break the line, end
-- the quotes or stay unseen is written as an escape.
import SelectQuery.Text.Visible

namespace SelectQuery

/-! ## Escapes -/

/-- A code point in hexadecimal between braces, as in `\u` followed by `301`. -/
def codePointEscape (c : Char) : List Char :=
  ['\\', 'u', '\x7b'] ++ Nat.toDigits 16 c.toNat ++ ['\x7d']

/-- How one character stands between double quotes. A single quote stands as
it is. -/
def quotedChar (c : Char) : List Char :=
  match c with
  | '\x00' => ['\\', '0']
  | '\t' => ['\\', 't']
  | '\r' => ['\\', 'r']
  | '\n' => ['\\', 'n']
  | '\\' => ['\\', '\\']
  | '"' => ['\\', '"']
  | c => if isVisible c then [c] else codePointEscape c

/-! ## Whole texts -/

/-- A text between double quotes. -/
def quoted (text : String) : String :=
  String.ofList ('"' :: text.toList.flatMap quotedChar ++ ['"'])

example : quoted "it's \"a\" \\ \t" = "\"it's \\\"a\\\" \\\\ \\t\"" := by decide +kernel

example : quoted "e\u0301" = "\"e\\u\x7b301\x7d\"" := by decide +kernel

end SelectQuery
