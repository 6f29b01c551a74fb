-- The law of clauses behind a query. They may stand in any order and as often as
-- one likes; of each kind the last one counts, and the rest of the statement stays
-- as it is.
import SelectQuery.Proofs.Query.Writing

namespace SelectQuery

namespace Statement

/-! ## Clauses behind the text of a statement -/

/-- The statement as it is written, with clauses behind it. -/
def sentenceWith (s : Statement) (h : s.WellFormed) (clauses : List Clause)
    (hclauses : ∀ c ∈ clauses, c.WellFormed) : Sentence :=
  { s.sentence h with
    clauses := s.clauses ++ clauses
    clauses_proper := by
      intro c hc
      rcases List.mem_append.mp hc with hc | hc
      · exact (h.clauses c hc).proper
      · exact (hclauses c hc).proper }

variable {s : Statement} {clauses : List Clause}

theorem body_sentenceWith (h : s.WellFormed) (hclauses : ∀ c ∈ clauses, c.WellFormed) :
    (s.sentenceWith h clauses hclauses).body =
      (s.sentence h).body ++ clauses.flatMap Clause.kinds := by
  simp [sentenceWith, sentence, Sentence.body]

theorem statement_sentenceWith (h : s.WellFormed) (hclauses : ∀ c ∈ clauses, c.WellFormed) :
    (s.sentenceWith h clauses hclauses).statement = s.applyAll clauses := by
  have hs := s.statement_sentence h
  rw [Sentence.statement_eq] at hs ⊢
  unfold sentenceWith
  rw [applyAll_append]
  exact congrArg (·.applyAll clauses) hs

/-- However a text spells the tokens of a statement and of clauses behind it, it is
read as the statement with these clauses added. -/
theorem parse_of_kinds (h : s.WellFormed) (hclauses : ∀ c ∈ clauses, c.WellFormed) {text : String}
    (hclean : (tokenize text).2 = [])
    (hkinds : kindsOf text =
      (s.sentence h).body ++ clauses.flatMap Clause.kinds ++ [.endOfInput]) :
    parse text = .ok (s.applyAll clauses) := by
  rw [parse_eq_ok_iff]
  refine ⟨hclean, s.sentenceWith h clauses hclauses, s.respects_sentence h, ?_,
    statement_sentenceWith h hclauses⟩
  rw [hkinds, Sentence.kinds, body_sentenceWith]

/-- The text of a statement with clauses behind it, each after a space. -/
def sqlWith (s : Statement) (clauses : List Clause) : String :=
  s.sql ++ String.join (clauses.map fun clause => " " ++ clause.sql)

theorem toList_sqlWith (s : Statement) (clauses : List Clause) :
    (s.sqlWith clauses).toList = s.sql.toList ++ clausesText clauses := by
  simp [sqlWith, clausesText, List.flatMap_map]

theorem parse_sqlWith (h : s.WellFormed) (hclauses : ∀ c ∈ clauses, c.WellFormed) :
    parse (s.sqlWith clauses) = .ok (s.applyAll clauses) := by
  have hcore := spells_sql h (apart_clausesText clauses apart_nil)
  have hall := spells_clauses hclauses apart_nil hcore
  rw [List.append_nil, ← toList_sqlWith] at hall
  obtain ⟨hclean, hkinds⟩ := kindsOf_of_spells hall
  exact parse_of_kinds h hclauses hclean hkinds

end Statement

/-! ## The law -/

/-- Behind the text of a statement without limit and order, clauses give it the
limit and the order that the last of each kind says, and leave the rest of it as it
is. That does not depend on how the tokens are spelled; and clauses with the same
last ones are read alike. -/
theorem the_last_clause_of_a_kind_counts (s : Statement) (clauses : List Clause)
    (hs : s.WellFormed) (hlimit : s.limit = none) (horder : s.orderBy = none)
    (hclauses : ∀ c ∈ clauses, c.WellFormed) :
    parse (s.sqlWith clauses) =
        .ok { s with limit := lastLimit? clauses, orderBy := lastOrder? clauses } ∧
    (∀ text front, (tokenize text).2 = [] → kindsOf s.sql = front ++ [.endOfInput] →
      kindsOf text = front ++ clauses.flatMap Clause.kinds ++ [.endOfInput] →
      parse text = parse (s.sqlWith clauses)) ∧
    ∀ others : List Clause, (∀ c ∈ others, c.WellFormed) →
      lastLimit? others = lastLimit? clauses → lastOrder? others = lastOrder? clauses →
      parse (s.sqlWith others) = parse (s.sqlWith clauses) := by
  have hall : ∀ cs : List Clause, s.applyAll cs =
      { s with limit := lastLimit? cs, orderBy := lastOrder? cs } := by
    intro cs
    rw [s.applyAll_eq, hlimit, horder, Option.or_none, Option.or_none]
  have hparse := Statement.parse_sqlWith hs hclauses
  refine ⟨by rw [hparse, hall], ?_, ?_⟩
  · intro text front hclean hfront hkinds
    rw [(kindsOf_statement hs).2] at hfront
    rw [← List.append_cancel_right hfront] at hkinds
    rw [hparse]
    exact Statement.parse_of_kinds hs hclauses hclean hkinds
  · intro others hothers hlimits horders
    rw [hparse, Statement.parse_sqlWith hs hothers, hall, hall, hlimits, horders]

/-- Of two limits the second counts, though an order stands between them and one
after them. -/
theorem the_second_limit_counts :
    Statement.sqlWith { columns := [.star], table := "t" }
        [.limit 5, .orderBy [.name "a", .call "f" "b"], .limit 2, .orderBy [.name "c"]] =
      "SELECT * FROM t LIMIT 5 ORDER BY a, f(b) LIMIT 2 ORDER BY c" ∧
    parse "SELECT * FROM t LIMIT 5 ORDER BY a, f(b) LIMIT 2 ORDER BY c" =
      .ok { columns := [.star], table := "t", limit := some 2, orderBy := some [.name "c"] } := by
  have hsql : Statement.sqlWith { columns := [.star], table := "t" }
        [.limit 5, .orderBy [.name "a", .call "f" "b"], .limit 2, .orderBy [.name "c"]] =
      "SELECT * FROM t LIMIT 5 ORDER BY a, f(b) LIMIT 2 ORDER BY c" := by decide +kernel
  have hs : Statement.WellFormed { columns := [.star], table := "t" } :=
    ⟨by simp, by decide, by decide +kernel, by simp, by simp [Statement.clauses]⟩
  have hlaw := the_last_clause_of_a_kind_counts _
    [.limit 5, .orderBy [.name "a", .call "f" "b"], .limit 2, .orderBy [.name "c"]] hs rfl rfl
    (by decide +kernel)
  rw [hsql] at hlaw
  exact ⟨hsql, hlaw.1⟩

end SelectQuery
