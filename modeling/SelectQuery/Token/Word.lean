-- Words: a letter or underscore, then letters, digits and underscores. A word
-- is a keyword if it is reserved and a name otherwise.
import SelectQuery.Token.Basic

namespace SelectQuery

/-! ## The characters of words -/

/-- A character that can start a word. -/
def isWordStart (c : Char) : Bool :=
  c.isAlpha || c = '_'

/-- A character that can go on a word. -/
def isWordPart (c : Char) : Bool :=
  c.isAlphanum || c = '_'

/-- The characters make one word. -/
def isWord : List Char → Bool
  | [] => false
  | c :: cs => isWordStart c && cs.all isWordPart

/-! ## Names and keywords -/

/-- What a word is as a token. -/
def Token.Kind.ofWord (word : String) : Token.Kind :=
  match Keyword.ofWord? word with
  | some k => .keyword k
  | none => .name word

/-- A text is a name: a word that is not reserved. -/
def isName (text : String) : Bool :=
  isWord text.toList && (Keyword.ofWord? text).isNone

/-! ## Their small laws -/

theorem isWordPart_of_isWordStart {c : Char} (h : isWordStart c = true) :
    isWordPart c = true := by
  simp only [isWordStart, isWordPart, Char.isAlphanum, Bool.or_eq_true] at *
  rcases h with h | h
  · exact Or.inl (Or.inl h)
  · exact Or.inr h

theorem Token.Kind.ofWord_eq_name {text : String} (h : isName text = true) :
    Token.Kind.ofWord text = .name text := by
  simp only [isName, Bool.and_eq_true, Option.isNone_iff_eq_none] at h
  simp [Token.Kind.ofWord, h.2]

end SelectQuery
