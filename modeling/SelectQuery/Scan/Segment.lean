-- Segments: the stretches into which a text falls. What stands at the start
-- of a text decides the kind of its first segment and how far it reaches.
-- Main statement: the first segment is a stretch that is not empty, right at
-- the start of the text.
import SelectQuery.Scan.Diagnostic
import SelectQuery.Text.Literal
import SelectQuery.Token.Word

namespace SelectQuery

/-! ## Characters and numbers -/

/-- The characters between tokens: space, tab, carriage return and line feed. -/
def isBlank (c : Char) : Bool :=
  c = ' ' || c = '\t' || c = '\r' || c = '\n'

/-- The largest number of a query: the largest of 64 bits with a sign. -/
def largestNumber : Nat := 9223372036854775807

example : Int64.maxValue.toInt = largestNumber := by decide

/-- The number that digits write, leading zeros or not. -/
def numberOf? (digits : List Char) : Option Int64 :=
  let value := Nat.ofDigitChars 10 digits 0
  if value ≤ largestNumber then some (Int64.ofNat value) else none

/-! ## Segments -/

/-- A stretch of text that is scanned as one. -/
inductive Segment where
  /-- A run of characters between tokens. -/
  | blank (run : List Char)
  /-- A word. -/
  | word (letters : List Char)
  /-- A run of digits. -/
  | digits (run : List Char)
  /-- A punctuation mark. -/
  | mark (mark : Mark)
  /-- A string literal with its two quotes. -/
  | literal (pieces : List Literal.Piece)
  /-- A quote that no later quote closes. -/
  | openQuote
  /-- Any other character. -/
  | stray (c : Char)
  deriving DecidableEq, Repr

namespace Segment

/-- The characters of a segment. -/
def text : Segment → List Char
  | blank run => run
  | word letters => letters
  | digits run => run
  | mark m => [m.char]
  | literal pieces => Literal.text pieces
  | openQuote => ['\'']
  | stray c => [c]

/-- The token that a segment gives. -/
def kind? : Segment → Option Token.Kind
  | blank _ => none
  | word letters => some (Token.Kind.ofWord (String.ofList letters))
  | digits run => (numberOf? run).map .number
  | mark m => some (.mark m)
  | literal pieces => (Literal.value? pieces).map .string
  | openQuote => none
  | stray _ => none

/-- What is wrong with a segment that starts on `line`, in the order of the
text. -/
def diagnostics (line : Nat) : Segment → List Diagnostic
  | blank _ => []
  | word _ => []
  | digits run =>
    if (numberOf? run).isSome then [] else [⟨.numberOutOfRange (String.ofList run), line⟩]
  | mark _ => []
  | literal pieces =>
    (Literal.badEscapes line pieces).map fun bad => ⟨.invalidEscape bad.1, bad.2⟩
  | openQuote => [⟨.unterminatedString, line⟩]
  | stray c => [⟨.illegalCharacter c, line⟩]

/-- The first segment of a text. -/
def first? : List Char → Option Segment
  | [] => none
  | c :: cs =>
    if isBlank c then some (blank (c :: cs.takeWhile isBlank))
    else if isWordStart c then some (word (c :: cs.takeWhile isWordPart))
    else if c.isDigit then some (digits (c :: cs.takeWhile Char.isDigit))
    else if c = '\'' then
      match Literal.body? cs with
      | some pieces => some (literal pieces)
      | none => some openQuote
    else
      match Mark.ofChar? c with
      | some m => some (mark m)
      | none => some (stray c)

/-! ## The first segment stands at the start of the text -/

/-- A run taken from a list together with its head stands at its start. -/
private theorem cons_takeWhile_append (p : Char → Bool) (c : Char) (cs : List Char) :
    (c :: cs.takeWhile p) ++ cs.dropWhile p = c :: cs := by
  simp [List.takeWhile_append_dropWhile]

theorem first?_eq_none_iff (cs : List Char) : first? cs = none ↔ cs = [] := by
  fun_cases first? cs <;> simp_all

/-- The first segment is a stretch that is not empty, at the start of the text. -/
theorem text_first? {cs : List Char} {segment : Segment} (h : first? cs = some segment) :
    segment.text ≠ [] ∧ ∃ rest, cs = segment.text ++ rest := by
  fun_cases first? cs with
  | case1 => simp [first?] at h
  | case2 c cs hb =>
    simp [first?, hb] at h
    subst h
    exact ⟨by simp [text], _, (cons_takeWhile_append ..).symm⟩
  | case3 c cs hb hw =>
    simp [first?, hb, hw] at h
    subst h
    exact ⟨by simp [text], _, (cons_takeWhile_append ..).symm⟩
  | case4 c cs hb hw hd =>
    simp [first?, hb, hw, hd] at h
    subst h
    exact ⟨by simp [text], _, (cons_takeWhile_append ..).symm⟩
  | case5 cs pieces hbody hb hw hd =>
    rw [first?, if_neg hb, if_neg hw, if_neg hd, if_pos rfl, hbody] at h
    cases h
    obtain ⟨-, rest, rfl⟩ := Literal.eq_inner_of_body? hbody
    exact ⟨by simp [text, Literal.text], rest, by simp [text, Literal.text]⟩
  | case6 cs hbody hb hw hd =>
    rw [first?, if_neg hb, if_neg hw, if_neg hd, if_pos rfl, hbody] at h
    cases h
    exact ⟨by simp [text], cs, rfl⟩
  | case7 c cs hb hw hd hq m hm =>
    rw [first?, if_neg hb, if_neg hw, if_neg hd, if_neg hq, hm] at h
    cases h
    have := (Mark.ofChar?_eq_some_iff c m).mp hm
    exact ⟨by simp [text], cs, by simp [text, this]⟩
  | case8 c cs hb hw hd hq hm =>
    rw [first?, if_neg hb, if_neg hw, if_neg hd, if_neg hq, hm] at h
    cases h
    exact ⟨by simp [text], cs, rfl⟩

end Segment

end SelectQuery
