-- The reserved words. A word is reserved in any mix of letter cases.

namespace SelectQuery

/-! ## The words -/

/-- A reserved word. -/
inductive Keyword where
  | selectKw
  | fromKw
  | whereKw
  | limitKw
  | andKw
  | orKw
  | orderKw
  | byKw
  deriving DecidableEq, Repr

namespace Keyword

/-- Every reserved word once. -/
def all : List Keyword :=
  [selectKw, fromKw, whereKw, limitKw, andKw, orKw, orderKw, byKw]

/-- The word in capitals. -/
def spelling : Keyword → String
  | selectKw => "SELECT"
  | fromKw => "FROM"
  | whereKw => "WHERE"
  | limitKw => "LIMIT"
  | andKw => "AND"
  | orKw => "OR"
  | orderKw => "ORDER"
  | byKw => "BY"

/-- The reserved word that a text spells. Only the letters of ASCII have two
cases here. -/
def ofWord? (word : String) : Option Keyword :=
  all.find? fun keyword => keyword.spelling == word.toUpper

/-! ## Its small laws -/

theorem mem_all (keyword : Keyword) : keyword ∈ all := by
  cases keyword <;> decide

theorem spelling_inj {k l : Keyword} (h : k.spelling = l.spelling) : k = l := by
  revert h
  cases k <;> cases l <;> decide

/-- A text spells a reserved word exactly if its capitals are the word's. -/
theorem ofWord?_eq_some_iff (word : String) (keyword : Keyword) :
    ofWord? word = some keyword ↔ word.toUpper = keyword.spelling := by
  constructor
  · intro h
    have := List.find?_some h
    simpa using (beq_iff_eq.mp this).symm
  · intro h
    unfold ofWord?
    rw [h]
    cases keyword <;> decide

end Keyword

end SelectQuery
