-- The punctuation of a query: five single characters.

namespace SelectQuery

/-- A punctuation mark. -/
inductive Mark where
  | equals
  | lparen
  | rparen
  | star
  | comma
  deriving DecidableEq, Repr

namespace Mark

/-- Every mark once. -/
def all : List Mark :=
  [equals, lparen, rparen, star, comma]

/-- The character of a mark. -/
def char : Mark → Char
  | equals => '='
  | lparen => '('
  | rparen => ')'
  | star => '*'
  | comma => ','

/-- The name of a mark in listings and messages. -/
def label : Mark → String
  | equals => "EQUALS"
  | lparen => "LPAREN"
  | rparen => "RPAREN"
  | star => "STAR"
  | comma => "COMMA"

/-- The mark that a character is. -/
def ofChar? (c : Char) : Option Mark :=
  all.find? fun mark => mark.char == c

/-! ## Its small laws -/

theorem mem_all (mark : Mark) : mark ∈ all := by
  cases mark <;> decide

@[simp]
theorem ofChar?_char (mark : Mark) : ofChar? mark.char = some mark := by
  cases mark <;> decide

theorem ofChar?_eq_some_iff (c : Char) (mark : Mark) :
    ofChar? c = some mark ↔ c = mark.char := by
  constructor
  · intro h
    have := List.find?_some h
    exact (beq_iff_eq.mp this).symm
  · rintro rfl
    exact ofChar?_char mark

end Mark

end SelectQuery
