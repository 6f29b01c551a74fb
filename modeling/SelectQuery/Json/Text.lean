-- Texts inside JSON: what may not stand between the quotes is written as an
-- escape, everything else as it is.

namespace SelectQuery

namespace Json

/-- A code point below 256 as `\u` with four digits in hexadecimal. -/
def unicodeEscape (c : Char) : List Char :=
  ['\\', 'u', '0', '0', Nat.digitChar (c.toNat / 16), Nat.digitChar (c.toNat % 16)]

/-- How one character stands inside a text. -/
def escaped (c : Char) : List Char :=
  match c with
  | '"' => ['\\', '"']
  | '\\' => ['\\', '\\']
  | '\x08' => ['\\', 'b']
  | '\x0c' => ['\\', 'f']
  | '\n' => ['\\', 'n']
  | '\r' => ['\\', 'r']
  | '\t' => ['\\', 't']
  | c => if c.toNat < 0x20 then unicodeEscape c else [c]

/-- A text between its quotes. -/
def quotedText (text : String) : String :=
  String.ofList ('"' :: text.toList.flatMap escaped ++ ['"'])

example : quotedText "a\"\x01\n\x7f" = "\"a\\\"\\u0001\\n\x7f\"" := by decide +kernel

end Json

end SelectQuery
