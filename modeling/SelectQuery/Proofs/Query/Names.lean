-- The law of the names that a statement refers to. They are the names in the text
-- of the query, in its order, but for the table, the functions, and the orders that
-- a later one overwrites.
import SelectQuery.Proofs.Query.Clauses

namespace SelectQuery

/-! ## Names among tokens -/

/-- A token at which a clause ends: another clause starts, or the query ends. -/
def endsClause : Token.Kind → Bool
  | .keyword .limitKw => true
  | .keyword .orderKw => true
  | .endOfInput => true
  | _ => false

/-- The place after these tokens lies in an order: since its keyword nothing has
ended the clause. -/
def InOrder (before : List Token.Kind) : Prop :=
  (before.filter endsClause).getLast? = some (.keyword .orderKw)

/-- The place between these tokens lies in an order, and another order comes after
it. -/
def Overwritten (before after : List Token.Kind) : Prop :=
  InOrder before ∧ .keyword .orderKw ∈ after

/-- A name between these tokens is that of the table, that of a function, or in an
order that another one overwrites. -/
def LeftOut (before after : List Token.Kind) : Prop :=
  before.getLast? = some (.keyword .fromKw) ∨ after.head? = some (.mark .lparen) ∨
    Overwritten before after

instance (before after : List Token.Kind) : Decidable (Overwritten before after) :=
  inferInstanceAs (Decidable (_ = _ ∧ _ ∈ _))

instance (before after : List Token.Kind) : Decidable (LeftOut before after) :=
  inferInstanceAs (Decidable (_ = _ ∨ _ = _ ∨ Overwritten before after))

/-- The name that a token between others is, if it is not left out. -/
def referredName? (before : List Token.Kind) (kind : Token.Kind) (after : List Token.Kind) :
    Option String :=
  match kind with
  | .name n => if LeftOut before after then none else some n
  | _ => none

/-- The names in a stretch of tokens between others that are not left out. -/
def namesBetween (before : List Token.Kind) :
    List Token.Kind → List Token.Kind → List String
  | [], _ => []
  | kind :: kinds, after =>
    (referredName? before kind (kinds ++ after)).toList
      ++ namesBetween (before ++ [kind]) kinds after

/-- The names among all tokens of a query that are not left out. -/
def namesAmong (kinds : List Token.Kind) : List String :=
  namesBetween [] kinds []

theorem namesBetween_append (before v w after : List Token.Kind) :
    namesBetween before (v ++ w) after =
      namesBetween before v (w ++ after) ++ namesBetween (before ++ v) w after := by
  induction v generalizing before with
  | nil => simp [namesBetween]
  | cons kind v ih => simp [namesBetween, ih]

theorem namesBetween_cons_of_not_name {kind : Token.Kind} (h : ∀ n, kind ≠ .name n)
    (before kinds after : List Token.Kind) :
    namesBetween before (kind :: kinds) after = namesBetween (before ++ [kind]) kinds after := by
  cases kind with
  | name n => exact absurd rfl (h n)
  | _ => rfl

/-! ## Inside a clause -/

/-- Tokens from inside a clause: none of them ends it, and none announces a table. -/
def Inside (kinds : List Token.Kind) : Prop :=
  ∀ kind ∈ kinds, endsClause kind = false ∧ kind ≠ .keyword .fromKw

theorem inside_nil : Inside [] := by
  simp [Inside]

theorem inside_append {v w : List Token.Kind} : Inside (v ++ w) ↔ Inside v ∧ Inside w :=
  List.forall_mem_append

theorem inside_cons {kind : Token.Kind} {v : List Token.Kind} :
    Inside (kind :: v) ↔ (endsClause kind = false ∧ kind ≠ .keyword .fromKw) ∧ Inside v :=
  List.forall_mem_cons

theorem inside_column (c : Column) : Inside c.kinds := by
  cases c <;> simp [Inside, Column.kinds, endsClause]

theorem inside_mark (m : Mark) : Inside [.mark m] := by
  simp [Inside, endsClause]

theorem inside_columnAfterComma (c : Column) : Inside c.kindsAfterComma :=
  inside_append.mpr ⟨inside_mark .comma, inside_column c⟩

theorem inside_columnsAfterComma (cs : List Column) :
    Inside (cs.flatMap Column.kindsAfterComma) := by
  induction cs with
  | nil => exact inside_nil
  | cons c cs ih => exact inside_append.mpr ⟨inside_columnAfterComma c, ih⟩

theorem head?_columnsAfterComma (cs : List Column) :
    (cs.flatMap Column.kindsAfterComma).head? ≠ some (.mark .lparen) := by
  cases cs <;> simp [Column.kindsAfterComma]

theorem inside_columns (cs : List Column) : Inside (Column.listKinds cs) := by
  cases cs with
  | nil => exact inside_nil
  | cons c cs => exact inside_append.mpr ⟨inside_column c, inside_columnsAfterComma cs⟩

theorem inside_operator (op : Operator) :
    endsClause op.kind = false ∧ op.kind ≠ .keyword .fromKw := by
  cases op <;> decide

theorem inside_phrase (p : Phrase) : Inside p.kinds := by
  induction p with
  | value v => cases v <;> simp [Inside, Phrase.kinds, Value.kind, endsClause]
  | group inner ih =>
    exact inside_append.mpr ⟨inside_mark .lparen, inside_append.mpr ⟨ih, inside_mark .rparen⟩⟩
  | binary op left right ihl ihr =>
    exact inside_append.mpr ⟨ihl, inside_cons.mpr ⟨inside_operator op, ihr⟩⟩

/-- Tokens inside a clause lead out of no order, and into none. -/
theorem inOrder_append {v : List Token.Kind} (h : Inside v) (before : List Token.Kind) :
    InOrder (before ++ v) ↔ InOrder before := by
  have hnone : v.filter endsClause = [] := by
    rw [List.filter_eq_nil_iff]
    intro kind hkind
    simp [(h kind hkind).1]
  unfold InOrder
  rw [List.filter_append, hnone, List.append_nil]

theorem order_not_mem {v : List Token.Kind} (h : Inside v) : .keyword .orderKw ∉ v := by
  intro hmem
  cases (h _ hmem).1

/-- An order has begun with its keyword. -/
theorem order_mem_of_inOrder {before : List Token.Kind} (h : InOrder before) :
    .keyword .orderKw ∈ before :=
  List.mem_of_mem_filter (List.mem_of_getLast? h)

/-- No name of an order that another one overwrites is kept. -/
theorem namesBetween_of_overwritten {before v after : List Token.Kind} (hv : Inside v)
    (h : Overwritten before after) : namesBetween before v after = [] := by
  obtain ⟨horder, hlater⟩ := h
  induction v generalizing before with
  | nil => rfl
  | cons kind v ih =>
    obtain ⟨hkind, hrest⟩ := inside_cons.mp hv
    have hhere : Overwritten before (v ++ after) := ⟨horder, List.mem_append_right v hlater⟩
    have hnext : InOrder (before ++ [kind]) :=
      (inOrder_append (inside_cons.mpr ⟨hkind, inside_nil⟩) before).mpr horder
    rw [namesBetween, ih hrest hnext, List.append_nil]
    cases kind with
    | name n => simp [referredName?, LeftOut, hhere]
    | _ => rfl

/-- A name that would be kept is kept as well after more tokens of the clause. -/
theorem not_leftOut_append {before v after : List Token.Kind} (hv : Inside v)
    (h : ¬ LeftOut before after) : ¬ LeftOut (before ++ v) after := by
  rintro (hlast | hcall | ⟨horder, hlater⟩)
  · rw [List.getLast?_append, Option.or_eq_some_iff] at hlast
    rcases hlast with hlast | ⟨-, hlast⟩
    · exact (hv _ (List.mem_of_getLast? hlast)).2 rfl
    · exact h (Or.inl hlast)
  · exact h (Or.inr (Or.inl hcall))
  · exact h (Or.inr (Or.inr ⟨(inOrder_append hv before).mp horder, hlater⟩))

/-- A name that would be kept is kept as well before more tokens of the clause,
unless they start with a parenthesis. -/
theorem not_leftOut_prepend {before w after : List Token.Kind} (hw : Inside w)
    (hnext : w.head? ≠ some (.mark .lparen)) (h : ¬ LeftOut before after) :
    ¬ LeftOut before (w ++ after) := by
  rintro (htable | hhead | ⟨horder, hlater⟩)
  · exact h (Or.inl htable)
  · rw [List.head?_append, Option.or_eq_some_iff] at hhead
    rcases hhead with hhead | ⟨-, hhead⟩
    · exact hnext hhead
    · exact h (Or.inr (Or.inl hhead))
  · have hafter := (List.mem_append.mp hlater).resolve_left (order_not_mem hw)
    exact h (Or.inr (Or.inr ⟨horder, hafter⟩))

/-! ## The parts of a query -/

/-- A column gives the name it refers to. -/
theorem namesBetween_column {before after : List Token.Kind} (c : Column)
    (h : ¬ LeftOut before after) :
    namesBetween before c.kinds after = c.referredName?.toList := by
  cases c with
  | star => rfl
  | name n => simp [Column.kinds, Column.referredName?, namesBetween, referredName?, h]
  | call f a =>
    have hfunction : LeftOut before (.mark .lparen :: .name a :: .mark .rparen :: after) :=
      Or.inr (Or.inl rfl)
    have hopen : Inside [.name f, .mark .lparen] := by simp [Inside, endsClause]
    have hargument : ¬ LeftOut (before ++ [.name f, .mark .lparen]) (.mark .rparen :: after) :=
      not_leftOut_append hopen (not_leftOut_prepend (inside_mark .rparen) (by simp) h)
    simp [Column.kinds, Column.referredName?, namesBetween, referredName?, hfunction, hargument]

theorem namesBetween_columnsAfterComma {before after : List Token.Kind} (cs : List Column)
    (h : ¬ LeftOut before after) :
    namesBetween before (cs.flatMap Column.kindsAfterComma) after =
      cs.filterMap Column.referredName? := by
  induction cs generalizing before with
  | nil => rfl
  | cons c cs ih =>
    have hfirst := not_leftOut_append (inside_mark .comma)
      (not_leftOut_prepend (inside_columnsAfterComma cs) (head?_columnsAfterComma cs) h)
    have hothers := not_leftOut_append (inside_columnAfterComma c) h
    rw [List.flatMap_cons, namesBetween_append, ih hothers, Column.kindsAfterComma,
      namesBetween_cons_of_not_name (by simp), namesBetween_column c hfirst, List.filterMap_cons]
    cases c.referredName? <;> rfl

/-- A column list gives the names its columns refer to. -/
theorem namesBetween_columns {before after : List Token.Kind} (cs : List Column)
    (h : ¬ LeftOut before after) :
    namesBetween before (Column.listKinds cs) after = cs.filterMap Column.referredName? := by
  cases cs with
  | nil => rfl
  | cons c cs =>
    have hfirst := not_leftOut_prepend (inside_columnsAfterComma cs) (head?_columnsAfterComma cs) h
    have hothers := not_leftOut_append (inside_column c) h
    rw [Column.listKinds, namesBetween_append, namesBetween_column c hfirst,
      namesBetween_columnsAfterComma cs hothers, List.filterMap_cons]
    cases c.referredName? <;> rfl

/-- A filter gives the names among the values of its condition: parentheses add none,
and operands come in the order of the tokens. -/
theorem namesBetween_phrase {before after : List Token.Kind} (p : Phrase)
    (h : ¬ LeftOut before after) : namesBetween before p.kinds after = p.condition.names := by
  induction p generalizing before after with
  | value v =>
    cases v with
    | name n =>
      simp [Phrase.kinds, Value.kind, namesBetween, referredName?, h, Phrase.condition,
        Condition.names, Condition.values, Value.name?]
    | _ => rfl
  | group inner ih =>
    have hinner := not_leftOut_append (inside_mark .lparen)
      (not_leftOut_prepend (inside_mark .rparen) (by simp) h)
    rw [Phrase.kinds, namesBetween_cons_of_not_name (by simp), namesBetween_append, ih hinner]
    exact List.append_nil _
  | binary op left right ihl ihr =>
    have hop := inside_operator op
    have hleft := not_leftOut_prepend (inside_cons.mpr ⟨hop, inside_phrase right⟩)
      (by cases op <;> simp [Operator.kind]) h
    have hright := not_leftOut_append (inside_cons.mpr ⟨hop, inside_nil⟩)
      (not_leftOut_append (inside_phrase left) h)
    rw [Phrase.kinds, namesBetween_append, ihl hleft,
      namesBetween_cons_of_not_name (by cases op <;> simp [Operator.kind]), ihr hright]
    simp [Phrase.condition, Condition.names, Condition.values]

/-! ## Clauses -/

theorem head?_clauses (clauses : List Clause) :
    (clauses.flatMap Clause.kinds ++ [Token.Kind.endOfInput]).head? ≠ some (.mark .lparen) := by
  cases clauses with
  | nil => simp
  | cons clause clauses => cases clause <;> simp [Clause.kinds]

/-- There is a last order if there is an order at all. -/
theorem order_mem_clauses (clauses : List Clause) :
    .keyword .orderKw ∈ clauses.flatMap Clause.kinds ↔ (lastOrder? clauses).isSome := by
  induction clauses with
  | nil => simp [lastOrder?]
  | cons clause clauses ih =>
    rw [List.flatMap_cons, List.mem_append, ih, lastOrder?_cons]
    cases clause with
    | limit n => simp [Clause.kinds, Clause.columns?]
    | orderBy columns => simp [Clause.kinds, Clause.columns?]

/-- Behind the keywords of an order a place is overwritten if another order comes. -/
theorem overwritten_order (before after : List Token.Kind) :
    Overwritten (before ++ [.keyword .orderKw, .keyword .byKw]) after ↔
      .keyword .orderKw ∈ after := by
  simp [Overwritten, InOrder, endsClause]

/-- The clauses of a query give the names in the last order. -/
theorem namesBetween_clauses (before : List Token.Kind) (clauses : List Clause) :
    namesBetween before (clauses.flatMap Clause.kinds) [.endOfInput] =
      ((lastOrder? clauses).getD []).filterMap Column.referredName? := by
  induction clauses generalizing before with
  | nil => rfl
  | cons clause clauses ih =>
    rw [List.flatMap_cons, namesBetween_append, ih, lastOrder?_cons]
    cases clause with
    | limit n =>
      rw [Clause.columns?, Option.or_none]
      rfl
    | orderBy columns =>
      rw [Clause.kinds, namesBetween_cons_of_not_name (by simp),
        namesBetween_cons_of_not_name (by simp), List.append_assoc, List.singleton_append]
      have hover : Overwritten (before ++ [.keyword .orderKw, .keyword .byKw])
          (clauses.flatMap Clause.kinds ++ [.endOfInput]) ↔ (lastOrder? clauses).isSome := by
        rw [overwritten_order, ← order_mem_clauses]
        simp
      -- Another order after this one takes all names of it away, and else they stay.
      cases hlast : lastOrder? clauses with
      | none =>
        have hkept : ¬ LeftOut (before ++ [.keyword .orderKw, .keyword .byKw])
            (clauses.flatMap Clause.kinds ++ [.endOfInput]) := by
          rintro (htable | hnext | hagain)
          · simp at htable
          · exact head?_clauses clauses hnext
          · simp [hover, hlast] at hagain
        rw [namesBetween_columns columns hkept]
        exact List.append_nil _
      | some later =>
        rw [namesBetween_of_overwritten (inside_columns columns) (hover.mpr (by simp [hlast]))]
        rfl

/-! ## The law -/

theorem namesBetween_table (before kinds after : List Token.Kind) (table : String) :
    namesBetween (before ++ [.keyword .fromKw]) (.name table :: kinds) after =
      namesBetween (before ++ [.keyword .fromKw] ++ [.name table]) kinds after := by
  simp [namesBetween, referredName?, LeftOut]

theorem namesBetween_filter {before after : List Token.Kind} (filter : Option Phrase)
    (horder : ¬ InOrder before) (hnext : after.head? ≠ some (.mark .lparen)) :
    namesBetween before (filterKinds filter) after =
      ((filter.map Phrase.condition).map Condition.names).getD [] := by
  cases filter with
  | none => rfl
  | some p =>
    have hwhere : Inside [.keyword .whereKw] := by simp [Inside, endsClause]
    have hkept : ¬ LeftOut (before ++ [.keyword .whereKw]) after := by
      rw [LeftOut, Overwritten, inOrder_append hwhere]
      simp [horder, hnext]
    rw [filterKinds, namesBetween_cons_of_not_name (by simp), namesBetween_phrase p hkept]
    rfl

/-- The names that a statement refers to are those that its sentence keeps. -/
theorem Sentence.names_statement (d : Sentence) : d.statement.names = namesAmong d.kinds := by
  have hselect : ∀ after, ¬ LeftOut [.keyword .selectKw] (.keyword .fromKw :: after) := by
    simp [LeftOut, Overwritten, InOrder, endsClause]
  have hfront : ¬ InOrder ([.keyword .selectKw] ++ Column.listKinds d.columns
      ++ [.keyword .fromKw] ++ [.name d.table]) := by
    intro h
    simpa [order_not_mem (inside_columns d.columns)] using order_mem_of_inOrder h
  unfold namesAmong kinds body
  rw [namesBetween_append, List.append_nil, List.nil_append,
    namesBetween_cons_of_not_name (by simp), List.nil_append, namesBetween_append,
    List.cons_append, namesBetween_columns d.columns (hselect _),
    namesBetween_cons_of_not_name (by simp), namesBetween_table, namesBetween_append,
    namesBetween_filter d.filter hfront (head?_clauses d.clauses), namesBetween_clauses]
  simp [statement, Statement.names, namesBetween, referredName?]

/-- The names that a statement refers to are the names in the text it is read from,
in the order of the text and as often as they stand there, without the table, the
functions, and what stands in an order that a later one overwrites. -/
theorem a_statement_refers_to_the_names_of_its_text (text : String) (s : Statement)
    (h : parse text = .ok s) : s.names = namesAmong (kindsOf text) := by
  obtain ⟨-, d, -, hkinds, rfl⟩ := (parse_eq_ok_iff text s).mp h
  rw [d.names_statement, hkinds]

/-- The first of two orders is gone with its names; parentheses in the filter change
nothing, and a string is no name. -/
theorem names_around_two_orders :
    parse "SELECT a, f(B) FROM t WHERE c = (A OR 'd') ORDER BY e, g(h) LIMIT 1 ORDER BY f(a)" =
      .ok {
        columns := [.name "a", .call "f" "B"]
        table := "t"
        condition := some (.binary .equals (.value (.name "c"))
          (.binary .or (.value (.name "A")) (.value (.string "d"))))
        limit := some 1
        orderBy := some [.call "f" "a"] } ∧
    namesAmong (kindsOf
        "SELECT a, f(B) FROM t WHERE c = (A OR 'd') ORDER BY e, g(h) LIMIT 1 ORDER BY f(a)") =
      ["a", "B", "c", "A", "a"] := by
  refine ⟨?parsed, (a_statement_refers_to_the_names_of_its_text _ _ ?parsed).symm⟩
  decide +kernel

end SelectQuery
