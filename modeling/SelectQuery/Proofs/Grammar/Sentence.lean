-- The written form of statements. A sentence is a way to build the tokens of a
-- query by the grammar; the clauses stand in it in the order and as often as
-- they are written.
import SelectQuery.Proofs.Grammar.Phrase
import SelectQuery.Statement.Basic

namespace SelectQuery

/-! ## Tokens of the parts -/

/-- The tokens of a column. -/
def Column.kinds : Column → List Token.Kind
  | star => [.mark .star]
  | name n => [.name n]
  | call function argument => [.name function, .mark .lparen, .name argument, .mark .rparen]

/-- The tokens of a column with the comma before it. -/
def Column.kindsAfterComma (column : Column) : List Token.Kind :=
  .mark .comma :: column.kinds

/-- The tokens of a column list. -/
def Column.listKinds : List Column → List Token.Kind
  | [] => []
  | first :: others => first.kinds ++ others.flatMap kindsAfterComma

/-- The tokens of a clause. -/
def Clause.kinds : Clause → List Token.Kind
  | limit count => [.keyword .limitKw, .number count]
  | orderBy columns => .keyword .orderKw :: .keyword .byKw :: Column.listKinds columns

/-- The clause orders by at least one column, if it orders. -/
def Clause.Proper : Clause → Prop
  | limit _ => True
  | orderBy columns => columns ≠ []

/-- The tokens of a filter, if there is one. -/
def filterKinds : Option Phrase → List Token.Kind
  | none => []
  | some phrase => .keyword .whereKw :: phrase.kinds

/-! ## The last clause of a kind -/

/-- The number of a limit. -/
def Clause.count? : Clause → Option Int64
  | limit n => some n
  | orderBy _ => none

/-- The columns of an order. -/
def Clause.columns? : Clause → Option (List Column)
  | limit _ => none
  | orderBy columns => some columns

/-- The number of the last limit among clauses. -/
def lastLimit? (clauses : List Clause) : Option Int64 :=
  (clauses.filterMap Clause.count?).getLast?

/-- The columns of the last order among clauses. -/
def lastOrder? (clauses : List Clause) : Option (List Column) :=
  (clauses.filterMap Clause.columns?).getLast?

theorem mem_of_lastLimit? {clauses : List Clause} {n : Int64} (h : lastLimit? clauses = some n) :
    .limit n ∈ clauses := by
  obtain ⟨clause, hmem, hcount⟩ := List.mem_filterMap.mp (List.mem_of_getLast? h)
  cases clause with
  | limit m =>
    cases hcount
    exact hmem
  | orderBy columns => cases hcount

theorem mem_of_lastOrder? {clauses : List Clause} {columns : List Column}
    (h : lastOrder? clauses = some columns) : .orderBy columns ∈ clauses := by
  obtain ⟨clause, hmem, hcolumns⟩ := List.mem_filterMap.mp (List.mem_of_getLast? h)
  cases clause with
  | limit n => cases hcolumns
  | orderBy others =>
    cases hcolumns
    exact hmem

theorem getLast?_filterMap_cons {α β : Type} (f : α → Option β) (x : α) (xs : List α) :
    ((x :: xs).filterMap f).getLast? = (xs.filterMap f).getLast?.or (f x) := by
  cases hx : f x with
  | none => simp [hx]
  | some b =>
    cases hlast : (xs.filterMap f).getLast? <;> simp [hx, List.getLast?_cons, hlast]

theorem lastLimit?_cons (clause : Clause) (clauses : List Clause) :
    lastLimit? (clause :: clauses) = (lastLimit? clauses).or clause.count? :=
  getLast?_filterMap_cons Clause.count? clause clauses

theorem lastOrder?_cons (clause : Clause) (clauses : List Clause) :
    lastOrder? (clause :: clauses) = (lastOrder? clauses).or clause.columns? :=
  getLast?_filterMap_cons Clause.columns? clause clauses

namespace Statement

theorem apply_eq (s : Statement) (clause : Clause) :
    s.apply clause =
      { s with limit := clause.count?.or s.limit, orderBy := clause.columns?.or s.orderBy } := by
  cases clause <;> rfl

/-- Clauses one after another set what the last of each kind says. -/
theorem applyAll_eq (s : Statement) (clauses : List Clause) :
    s.applyAll clauses =
      { s with
        limit := (lastLimit? clauses).or s.limit
        orderBy := (lastOrder? clauses).or s.orderBy } := by
  induction clauses generalizing s with
  | nil => rfl
  | cons clause clauses ih =>
    rw [applyAll_cons, ih, apply_eq, lastLimit?_cons, lastOrder?_cons, Option.or_assoc,
      Option.or_assoc]

end Statement

/-! ## Sentences -/

/-- A written statement. -/
structure Sentence where
  columns : List Column
  columns_ne : columns ≠ []
  table : String
  filter : Option Phrase
  clauses : List Clause
  clauses_proper : ∀ clause ∈ clauses, clause.Proper

namespace Sentence

/-- The tokens of the sentence before the end of the query. -/
def body (sentence : Sentence) : List Token.Kind :=
  .keyword .selectKw :: (Column.listKinds sentence.columns
    ++ .keyword .fromKw :: .name sentence.table
    :: (filterKinds sentence.filter ++ sentence.clauses.flatMap Clause.kinds))

/-- The tokens of the sentence, from left to right. -/
def kinds (sentence : Sentence) : List Token.Kind :=
  sentence.body ++ [.endOfInput]

/-- The statement that is written: of clauses of one kind the last one counts. -/
def statement (sentence : Sentence) : Statement :=
  { columns := sentence.columns
    table := sentence.table
    condition := sentence.filter.map Phrase.condition
    limit := lastLimit? sentence.clauses
    orderBy := lastOrder? sentence.clauses }

/-- The clauses may as well be added one after another. -/
theorem statement_eq (sentence : Sentence) :
    sentence.statement =
      Statement.applyAll
        { columns := sentence.columns
          table := sentence.table
          condition := sentence.filter.map Phrase.condition }
        sentence.clauses := by
  simp [Statement.applyAll_eq, statement]

/-- The filter respects the order in which operators bind. -/
def Respects (sentence : Sentence) : Prop :=
  ∀ phrase ∈ sentence.filter, phrase.Respects

end Sentence

/-- The tokens are those of a sentence. -/
def Derivable (kinds : List Token.Kind) : Prop :=
  ∃ sentence : Sentence, sentence.kinds = kinds

/-- Some sentence starts with the tokens. -/
def Viable (kinds : List Token.Kind) : Prop :=
  ∃ sentence : Sentence, kinds <+: sentence.kinds

/-! ## No end inside -/

theorem Column.kinds_ne_end (column : Column) : Token.Kind.endOfInput ∉ column.kinds := by
  cases column <;> simp [kinds]

theorem Column.listKinds_ne_end (columns : List Column) :
    Token.Kind.endOfInput ∉ listKinds columns := by
  cases columns with
  | nil => simp [listKinds]
  | cons first others =>
    simp only [listKinds, List.mem_append, List.mem_flatMap, not_or, not_exists, not_and]
    refine ⟨first.kinds_ne_end, ?_⟩
    intro column _
    simp [kindsAfterComma, column.kinds_ne_end]

theorem Clause.kinds_ne_end (clause : Clause) : Token.Kind.endOfInput ∉ clause.kinds := by
  cases clause with
  | limit count => simp [kinds]
  | orderBy columns => simp [kinds, Column.listKinds_ne_end]

theorem filterKinds_ne_end (filter : Option Phrase) :
    Token.Kind.endOfInput ∉ filterKinds filter := by
  cases filter with
  | none => simp [filterKinds]
  | some phrase => simp [filterKinds, phrase.kinds_ne_end]

/-- Only the last token of a sentence is the end of the query. -/
theorem Sentence.body_ne_end (sentence : Sentence) : Token.Kind.endOfInput ∉ sentence.body := by
  unfold body
  simp only [List.mem_cons, List.mem_append, List.mem_flatMap, not_or, not_exists, not_and]
  refine ⟨by simp, Column.listKinds_ne_end _, by simp, by simp, filterKinds_ne_end _, ?_⟩
  intro clause _
  exact clause.kinds_ne_end

end SelectQuery
