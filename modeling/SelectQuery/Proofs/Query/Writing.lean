-- The laws of writing a statement as a query. A statement that can be written
-- has a sentence of its own, with no more parentheses than it needs, and the
-- written text spells the tokens of that sentence. So it is read back as the
-- same statement.
import SelectQuery.Proofs.Query.Parsing
import SelectQuery.Proofs.Scan.Spelling

namespace SelectQuery

/-! ## The phrase of a condition -/

namespace Condition

/-- The operand of an operator, in parentheses if it needs them. -/
def enclose (parens : Bool) (phrase : Phrase) : Phrase :=
  if parens then .group phrase else phrase

/-- The condition as it is written. -/
def phrase : Condition → Phrase
  | value v => .value v
  | binary op left right =>
    .binary op (enclose (left.needsParens .left op) left.phrase)
      (enclose (right.needsParens .right op) right.phrase)

theorem condition_enclose (parens : Bool) (phrase : Phrase) :
    (enclose parens phrase).condition = phrase.condition := by
  cases parens <;> rfl

theorem respects_enclose (parens : Bool) (phrase : Phrase) :
    (enclose parens phrase).Respects ↔ phrase.Respects := by
  cases parens <;> rfl

theorem condition_phrase (c : Condition) : c.phrase.condition = c := by
  induction c with
  | value v => rfl
  | binary op left right ihl ihr =>
    simp [phrase, Phrase.condition, condition_enclose, ihl, ihr]

/-- The operators open in the written condition bind at least as tightly as
`least`. -/
def BindsFrom (least : Nat) (c : Condition) : Prop :=
  ∀ o ∈ c.phrase.openOperators, least ≤ o.precedence

/-- An operand on the left is in parentheses if it binds looser. -/
theorem bindsFrom_left {op : Operator} {left : Condition}
    (h : ∀ inner l r, left = .binary inner l r → BindsFrom inner.precedence left) :
    ∀ o ∈ (enclose (left.needsParens .left op) left.phrase).openOperators,
      op.precedence ≤ o.precedence := by
  intro o ho
  cases left with
  | value v => cases ho
  | binary inner l r =>
    unfold enclose at ho
    split at ho
    · cases ho
    · rename_i hparens
      simp only [needsParens, decide_eq_true_eq, Nat.not_lt] at hparens
      exact Nat.le_trans hparens (h inner l r rfl o ho)

/-- An operand on the right is in parentheses if it binds no tighter. -/
theorem bindsFrom_right {op : Operator} {right : Condition}
    (h : ∀ inner l r, right = .binary inner l r → BindsFrom inner.precedence right) :
    ∀ o ∈ (enclose (right.needsParens .right op) right.phrase).openOperators,
      op.precedence < o.precedence := by
  intro o ho
  cases right with
  | value v => cases ho
  | binary inner l r =>
    unfold enclose at ho
    split at ho
    · cases ho
    · rename_i hparens
      simp only [needsParens, decide_eq_true_eq, Nat.not_le] at hparens
      exact Nat.lt_of_lt_of_le hparens (h inner l r rfl o ho)

theorem bindsFrom_phrase (c : Condition) :
    ∀ op left right, c = .binary op left right → BindsFrom op.precedence c := by
  induction c with
  | value v =>
    intro op left right h
    cases h
  | binary op left right ihl ihr =>
    intro op' left' right' h o ho
    cases h
    simp only [phrase, Phrase.openOperators, List.mem_append, List.mem_cons] at ho
    rcases ho with ho | rfl | ho
    · exact bindsFrom_left ihl o ho
    · exact Nat.le_refl _
    · exact Nat.le_of_lt (bindsFrom_right ihr o ho)

/-- The parentheses that are written are enough. -/
theorem respects_phrase (c : Condition) : c.phrase.Respects := by
  induction c with
  | value v => trivial
  | binary op left right ihl ihr =>
    exact Phrase.respects_binary_iff.mpr
      ⟨(respects_enclose _ _).mpr ihl, (respects_enclose _ _).mpr ihr,
        bindsFrom_left (bindsFrom_phrase left), bindsFrom_right (bindsFrom_phrase right)⟩

end Condition

/-! ## The sentence of a statement -/

theorem Clause.WellFormed.proper {c : Clause} (h : c.WellFormed) : c.Proper := by
  cases c with
  | limit n => trivial
  | orderBy columns => exact h.1

namespace Statement

/-- The statement as it is written. -/
def sentence (s : Statement) (h : s.WellFormed) : Sentence where
  columns := s.columns
  columns_ne := h.columns_ne
  table := s.table
  filter := s.condition.map Condition.phrase
  clauses := s.clauses
  clauses_proper := fun c hc => (h.clauses c hc).proper

theorem statement_sentence (s : Statement) (h : s.WellFormed) : (s.sentence h).statement = s := by
  have hcondition : (s.condition.map Condition.phrase).map Phrase.condition = s.condition := by
    cases s.condition with
    | none => rfl
    | some c => simp [Condition.condition_phrase]
  rw [Sentence.statement_eq, sentence, hcondition]
  exact applyAll_clauses s

theorem respects_sentence (s : Statement) (h : s.WellFormed) : (s.sentence h).Respects := by
  intro p hp
  obtain ⟨c, -, rfl⟩ := Option.map_eq_some_iff.mp hp
  exact c.respects_phrase

end Statement

/-! ## What the parts of a query spell -/

theorem apart_space (rest : List Char) : Apart (' ' :: rest) :=
  apart_cons (by decide) rest

theorem apart_mark (m : Mark) (rest : List Char) : Apart (m.char :: rest) :=
  apart_cons (classes_of_mark m).2.1 rest

theorem spells_value {v : Value} (h : v.WellFormed) {rest : List Char} (hrest : Apart rest) :
    Spells rest (v.sql.toList ++ rest) [v.kind] := by
  cases v with
  | number n => exact spells_number h hrest
  | string s => exact spells_string s rest
  | name n => exact spells_name h hrest

theorem spells_operator (op : Operator) {rest : List Char} (hrest : Apart rest) :
    Spells rest (op.spelling.toList ++ rest) [op.kind] := by
  cases op with
  | equals => exact spells_mark .equals rest
  | and => exact spells_keyword .andKw hrest
  | or => exact spells_keyword .orKw hrest

theorem spells_enclose (parens : Bool) {c : Condition}
    (h : ∀ rest, Apart rest → Spells rest (c.sql.toList ++ rest) c.phrase.kinds)
    {rest : List Char} (hrest : Apart rest) :
    Spells rest ((if parens then "(" ++ c.sql ++ ")" else c.sql).toList ++ rest)
      (Condition.enclose parens c.phrase).kinds := by
  cases parens with
  | false => exact h rest hrest
  | true =>
    have hinner := (h _ (apart_mark .rparen rest)).append_tight (spells_mark .rparen rest)
    have hall := (spells_mark .lparen _).append_tight hinner
    simpa [Condition.enclose, Phrase.kinds, Mark.char] using hall

theorem spells_condition {c : Condition} (h : c.WellFormed) {rest : List Char}
    (hrest : Apart rest) : Spells rest (c.sql.toList ++ rest) c.phrase.kinds := by
  induction c generalizing rest with
  | value v => exact spells_value (h v (by simp [Condition.values])) hrest
  | binary op left right ihl ihr =>
    have hleft : left.WellFormed := fun v hv => h v (by simp [Condition.values, hv])
    have hright : right.WellFormed := fun v hv => h v (by simp [Condition.values, hv])
    have hr := spells_enclose (right.needsParens .right op) (fun _ => ihr hright) hrest
    have hop := (spells_operator op (apart_space _)).append_space hr
    have hall := (spells_enclose (left.needsParens .left op) (fun _ => ihl hleft)
      (apart_space _)).append_space hop
    simpa [Condition.sql, Condition.phrase, Phrase.kinds] using hall

theorem spells_column {c : Column} (h : c.WellFormed) {rest : List Char} (hrest : Apart rest) :
    Spells rest (c.sql.toList ++ rest) c.kinds := by
  cases c with
  | star => exact spells_mark .star rest
  | name n => exact spells_name h hrest
  | call function argument =>
    obtain ⟨hfunction, hargument⟩ := h
    have hclose := (spells_name hargument (apart_mark .rparen rest)).append_tight
      (spells_mark .rparen rest)
    have hopen := (spells_mark .lparen _).append_tight hclose
    have hall := (spells_name hfunction (apart_mark .lparen _)).append_tight hopen
    simpa [Column.sql, Column.kinds, Mark.char] using hall

theorem spells_columns {cs : List Column} (hne : cs ≠ []) (h : ∀ c ∈ cs, c.WellFormed)
    {rest : List Char} (hrest : Apart rest) :
    Spells rest ((Column.listSql cs).toList ++ rest) (Column.listKinds cs) := by
  induction cs with
  | nil => exact absurd rfl hne
  | cons c cs ih =>
    have hc := h c List.mem_cons_self
    cases cs with
    | nil => simpa [Column.listSql, Column.listKinds] using spells_column hc hrest
    | cons d ds =>
      have hmore := ih (by simp) fun x hx => h x (List.mem_cons_of_mem _ hx)
      have hcomma := (spells_mark .comma _).append_space hmore
      have hall := (spells_column hc (apart_mark .comma _)).append_tight hcomma
      simpa [Column.listSql, String.intercalate_cons_cons, Column.listKinds,
        Column.kindsAfterComma, Mark.char] using hall

theorem spells_clause {c : Clause} (h : c.WellFormed) {rest : List Char} (hrest : Apart rest) :
    Spells rest (c.sql.toList ++ rest) c.kinds := by
  cases c with
  | limit n =>
    have hall := (spells_keyword .limitKw (apart_space _)).append_space (spells_number h hrest)
    simpa [Clause.sql, Clause.kinds, Keyword.spelling] using hall
  | orderBy columns =>
    have hby := (spells_keyword .byKw (apart_space _)).append_space
      (spells_columns h.1 h.2 hrest)
    have hall := (spells_keyword .orderKw (apart_space _)).append_space hby
    simpa [Clause.sql, Clause.kinds, Keyword.spelling] using hall

/-! ## What a query spells -/

/-- The clauses of a query, each after a space. -/
def clausesText (clauses : List Clause) : List Char :=
  clauses.flatMap fun clause => ' ' :: clause.sql.toList

/-- The filter of a query after a space, if there is one. -/
def filterText : Option Condition → List Char
  | none => []
  | some condition => ' ' :: (Keyword.whereKw.spelling.toList ++ ' ' :: condition.sql.toList)

theorem toList_sql (s : Statement) :
    s.sql.toList = "SELECT ".toList ++ (Column.listSql s.columns).toList ++ " FROM ".toList
      ++ s.table.toList ++ filterText s.condition ++ clausesText s.clauses := by
  have hclauses : (String.join (s.clauses.map fun clause => " " ++ clause.sql)).toList =
      clausesText s.clauses := by
    simp [clausesText, List.flatMap_map]
  unfold Statement.sql
  cases s.condition <;> simp [filterText, hclauses, Keyword.spelling]

theorem apart_clausesText (clauses : List Clause) {rest : List Char} (hrest : Apart rest) :
    Apart (clausesText clauses ++ rest) := by
  cases clauses with
  | nil => exact hrest
  | cons c cs =>
    unfold clausesText
    rw [List.flatMap_cons]
    exact apart_space _

theorem apart_filterText (filter : Option Condition) {rest : List Char} (hrest : Apart rest) :
    Apart (filterText filter ++ rest) := by
  cases filter with
  | none => exact hrest
  | some c => exact apart_space _

/-- A spelling goes on over clauses. -/
theorem spells_clauses {clauses : List Clause} (h : ∀ c ∈ clauses, c.WellFormed)
    {input rest : List Char} {kinds : List Token.Kind} (hrest : Apart rest)
    (hbefore : Spells (clausesText clauses ++ rest) input kinds) :
    Spells rest input (kinds ++ clauses.flatMap Clause.kinds) := by
  induction clauses generalizing kinds with
  | nil =>
    rw [List.flatMap_nil, List.append_nil]
    exact hbefore
  | cons c cs ih =>
    have hclause := spells_clause (h c List.mem_cons_self) (apart_clausesText cs hrest)
    have htext : clausesText (c :: cs) ++ rest =
        ' ' :: (c.sql.toList ++ (clausesText cs ++ rest)) := by
      simp [clausesText]
    rw [htext] at hbefore
    have hnext := hbefore.append_space hclause
    rw [List.flatMap_cons, ← List.append_assoc]
    exact ih (fun x hx => h x (List.mem_cons_of_mem _ hx)) hnext

/-- A spelling goes on over the filter. -/
theorem spells_filter {filter : Option Condition} (h : ∀ c ∈ filter, c.WellFormed)
    {input rest : List Char} {kinds : List Token.Kind} (hrest : Apart rest)
    (hbefore : Spells (filterText filter ++ rest) input kinds) :
    Spells rest input (kinds ++ filterKinds (filter.map Condition.phrase)) := by
  cases filter with
  | none =>
    rw [Option.map_none, filterKinds, List.append_nil]
    exact hbefore
  | some c =>
    have hfilter := (spells_keyword .whereKw (apart_space _)).append_space
      (spells_condition (h c rfl) hrest)
    rw [filterText, List.cons_append, List.append_assoc, List.cons_append] at hbefore
    exact hbefore.append_space hfilter

/-- The text of a statement spells the tokens of its sentence. -/
theorem spells_sql {s : Statement} (h : s.WellFormed) {rest : List Char} (hrest : Apart rest) :
    Spells rest (s.sql.toList ++ rest) (s.sentence h).body := by
  have happart := apart_filterText s.condition (apart_clausesText s.clauses hrest)
  have hfrom := (spells_keyword .fromKw (apart_space _)).append_space
    (spells_name h.table happart)
  have hcolumns := (spells_columns h.columns_ne h.columns (apart_space _)).append_space hfrom
  have hselect := (spells_keyword .selectKw (apart_space _)).append_space hcolumns
  have hall := spells_clauses h.clauses hrest
    (spells_filter h.condition (apart_clausesText s.clauses hrest) hselect)
  rw [toList_sql]
  simpa [Sentence.body, Statement.sentence, Keyword.spelling] using hall

/-- The text of a statement has the tokens of its sentence and no problems. -/
theorem kindsOf_statement {s : Statement} (h : s.WellFormed) :
    (tokenize s.sql).2 = [] ∧ kindsOf s.sql = (s.sentence h).body ++ [.endOfInput] := by
  apply kindsOf_of_spells
  simpa using spells_sql h apart_nil

/-- A statement that can be written is read back from its text. -/
theorem parse_sql {s : Statement} (h : s.WellFormed) : parse s.sql = .ok s := by
  obtain ⟨hclean, hkinds⟩ := kindsOf_statement h
  rw [parse_eq_ok_iff]
  exact ⟨hclean, s.sentence h, s.respects_sentence h, hkinds.symm, s.statement_sentence h⟩

/-! ## What is read can be written -/

theorem Column.wellFormed_of_kinds {c : Column} (h : ∀ kind ∈ c.kinds, kind.WellFormed) :
    c.WellFormed := by
  cases c with
  | star => trivial
  | name n => exact h (.name n) (by simp [kinds])
  | call function argument =>
    exact ⟨h (.name function) (by simp [kinds]), h (.name argument) (by simp [kinds])⟩

theorem Column.kinds_subset {c : Column} {cs : List Column} (hc : c ∈ cs) :
    ∀ kind ∈ c.kinds, kind ∈ listKinds cs := by
  intro kind hkind
  cases cs with
  | nil => cases hc
  | cons first others =>
    simp only [listKinds, List.mem_append, List.mem_flatMap]
    rcases List.mem_cons.mp hc with rfl | hc
    · exact Or.inl hkind
    · exact Or.inr ⟨c, hc, List.mem_cons_of_mem _ hkind⟩

theorem Column.wellFormed_of_listKinds {cs : List Column}
    (h : ∀ kind ∈ listKinds cs, kind.WellFormed) : ∀ c ∈ cs, c.WellFormed := by
  intro c hc
  exact wellFormed_of_kinds fun kind hkind => h kind (kinds_subset hc kind hkind)

theorem Clause.wellFormed_of_kinds {c : Clause} (hproper : c.Proper)
    (h : ∀ kind ∈ c.kinds, kind.WellFormed) : c.WellFormed := by
  cases c with
  | limit n => exact h (.number n) (by simp [kinds])
  | orderBy columns =>
    refine ⟨hproper, Column.wellFormed_of_listKinds ?_⟩
    intro kind hkind
    exact h kind (by simp [kinds, hkind])

theorem Phrase.kind_of_value {p : Phrase} {v : Value} (h : v ∈ p.condition.values) :
    v.kind ∈ p.kinds := by
  induction p with
  | value w =>
    obtain rfl : v = w := by simpa [condition, Condition.values] using h
    simp [kinds]
  | group inner ih => simp [kinds, ih h]
  | binary op left right ihl ihr =>
    rcases List.mem_append.mp h with h | h
    · simp [kinds, ihl h]
    · simp [kinds, ihr h]

theorem Value.wellFormed_of_kind {v : Value} (h : v.kind.WellFormed) : v.WellFormed := by
  cases v with
  | number n => exact h
  | string s => trivial
  | name n => exact h

theorem Statement.mem_clauses {s : Statement} {c : Clause} :
    c ∈ s.clauses ↔
      (∃ columns, s.orderBy = some columns ∧ c = .orderBy columns) ∨
        ∃ n, s.limit = some n ∧ c = .limit n := by
  simp [clauses, eq_comm]

/-- The clauses that stand in the end are among those that are written. -/
theorem Sentence.mem_clauses_statement {d : Sentence} {c : Clause}
    (h : c ∈ d.statement.clauses) : c ∈ d.clauses := by
  rcases Statement.mem_clauses.mp h with ⟨columns, hcolumns, rfl⟩ | ⟨n, hn, rfl⟩
  · exact mem_of_lastOrder? hcolumns
  · exact mem_of_lastLimit? hn

/-- A sentence of tokens that can be spelled has a statement that can be
written. -/
theorem Sentence.wellFormed_statement {d : Sentence} (h : ∀ kind ∈ d.kinds, kind.WellFormed) :
    d.statement.WellFormed := by
  have hbody : ∀ kind ∈ d.body, kind.WellFormed := fun kind hkind =>
    h kind (List.mem_append_left _ hkind)
  refine ⟨d.columns_ne, ?_, ?_, ?_, ?_⟩
  · apply Column.wellFormed_of_listKinds
    intro kind hkind
    have hmem : kind ∈ Column.listKinds d.columns := hkind
    exact hbody kind (by simp [body, hmem])
  · exact hbody (.name d.table) (by simp [body])
  · intro c hc v hv
    obtain ⟨p, hp, rfl⟩ := Option.map_eq_some_iff.mp hc
    apply Value.wellFormed_of_kind
    exact hbody v.kind (by simp [body, hp, filterKinds, Phrase.kind_of_value hv])
  · intro c hc
    have hmem := d.mem_clauses_statement hc
    apply Clause.wellFormed_of_kinds (d.clauses_proper c hmem)
    intro kind hkind
    refine hbody kind ?_
    simp only [body, List.mem_cons, List.mem_append, List.mem_flatMap]
    exact Or.inr (Or.inr (Or.inr (Or.inr (Or.inr ⟨c, hmem, hkind⟩))))

theorem wellFormed_of_parse {text : String} {s : Statement} (h : parse text = .ok s) :
    s.WellFormed := by
  obtain ⟨-, d, -, hkinds, rfl⟩ := (parse_eq_ok_iff text s).mp h
  apply Sentence.wellFormed_statement
  rw [hkinds]
  exact wellFormed_kindsOf text

/-! ## The law -/

/-- The statements that some text is read as are those that can be written, and
these are the statements that their own text is read as. -/
theorem a_statement_is_read_exactly_if_it_can_be_written (s : Statement) :
    ((∃ text, parse text = .ok s) ↔ s.WellFormed) ∧ (s.WellFormed ↔ parse s.sql = .ok s) := by
  refine ⟨⟨?_, ?_⟩, ⟨?_, ?_⟩⟩
  · rintro ⟨text, htext⟩
    exact wellFormed_of_parse htext
  · intro h
    exact ⟨s.sql, parse_sql h⟩
  · exact parse_sql
  · exact wellFormed_of_parse

end SelectQuery
