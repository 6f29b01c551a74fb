-- The laws of reading a query. The grammar pulls tokens from the scanner one
-- by one, and what it makes of them is what it makes of all tokens at once. A
-- query is read exactly if its text has no problems and its tokens are those
-- of a sentence.
import SelectQuery.Proofs.Query.Stream
import Mathlib.Logic.ExistsUnique

namespace SelectQuery

open Grammar

/-! ## Problems before a token -/

/-- The items that lie before a given one. -/
def itemsBefore (items : List Item) (item : Item) : List Item :=
  items.filter fun other => other.place < item.place

/-- The problems of a text that lie before its token number `k`, which has `k`
tokens before it. -/
def ProblemsBefore (text : String) (k : Nat) (problems : List Diagnostic) : Prop :=
  ∃ items item, Gives text items ∧ item ∈ items ∧ item.token?.isSome ∧
    (tokensOf (itemsBefore items item)).length = k ∧
    diagnosticsOf (itemsBefore items item) = problems

theorem itemsBefore_eq {front more : List Item} {item : Item}
    (h : (front ++ item :: more).Pairwise fun a b => a.place < b.place) :
    itemsBefore (front ++ item :: more) item = front := by
  obtain ⟨-, hmore, hfront⟩ := List.pairwise_append.mp h
  have hkeep : front.filter (fun other => other.place < item.place) = front := by
    rw [List.filter_eq_self]
    intro other hmem
    simpa using hfront other hmem item List.mem_cons_self
  have hdrop : more.filter (fun other => other.place < item.place) = [] := by
    rw [List.filter_eq_nil_iff]
    intro other hmem
    have := (List.pairwise_cons.mp hmore).1 other hmem
    simp only [decide_eq_true_eq]
    omega
  unfold itemsBefore
  rw [List.filter_append, hkeep, List.filter_cons_of_neg (by simp), hdrop, List.append_nil]

/-- At a token the reader has recorded the problems that lie before it. -/
theorem exists_problemsBefore {text : String} {k : Nat} (hk : k < (kindsOf text).length) :
    ∃ problems, ProblemsBefore text k problems ∧ problems <+: (tokenize text).2 ∧
      (advance^[k] (Reader.ofText text)).scanner.diagnostics.toList = problems := by
  obtain ⟨items, hgives⟩ := exists_gives text
  have hlt : k < (tokensOf items).length := by
    simpa [kindsOf, hgives.tokenize_eq] using hk
  obtain ⟨front, item, more, rfl, rfl, hitem⟩ := exists_item (List.getElem?_eq_getElem hlt)
  have hbefore := itemsBefore_eq hgives.pairwise
  refine ⟨diagnosticsOf front, ⟨_, item, hgives, by simp, by simp [hitem], ?_, ?_⟩, ?_,
    diagnostics_at hgives hitem⟩
  · rw [hbefore]
  · rw [hbefore]
  · rw [hgives.tokenize_eq, diagnosticsOf_append]
    exact List.prefix_append _ _

/-! ## One token at a time and all at once -/

/-- All tokens of a query as a source; the query ends where the last one
stands. -/
def TokenList.ofTokens (tokens : List Token) : TokenList :=
  { tokens, endLine := (tokens.getLast?.map Token.line).getD 1 }

/-- What the grammar makes of all tokens of a query. -/
def verdict (tokens : List Token) : Except ParseError Statement :=
  (query.run (TokenList.ofTokens tokens)).1.mapError ParseError.ofFault

theorem tokenAt_ofTokens (text : String) (i : Nat) :
    tokenAt (Reader.ofText text) i = tokenAt (TokenList.ofTokens (tokenize text).1) i := by
  obtain ⟨token, hlast, hkind, hend⟩ := at_end text
  unfold TokenList.ofTokens
  rw [TokenList.tokenAt_eq]
  cases htoken : (tokenize text).1[i]? with
  | some found => exact tokenAt_ofText htoken
  | none =>
    have hlength : (kindsOf text).length ≤ i := by
      simpa [kindsOf] using htoken
    rw [(hend i (by omega)).1, hlast]
    simp [← hkind]

theorem verdict_eq (text : String) :
    verdict (tokenize text).1 =
      (query.run (Reader.ofText text)).1.mapError ParseError.ofFault := by
  have hsame : (query : Rule Reader Statement).AgreesAt (query : Rule TokenList Statement)
      (Reader.ofText text) := agreesAt_query _
  obtain ⟨k, -, hagrees⟩ := hsame
  unfold verdict
  rw [hagrees (TokenList.ofTokens (tokenize text).1) fun i _ => tokenAt_ofTokens text i]

theorem parse_eq (text : String) :
    parse text =
      if (query.run (Reader.ofText text)).2.scanner.diagnostics.toList = [] then
        (query.run (Reader.ofText text)).1.mapError ParseError.ofFault
      else .error (.lexical (query.run (Reader.ofText text)).2.scanner.diagnostics.toList) := by
  change (Reader.ofText text).readQuery.1 = _
  unfold Reader.readQuery Reader.readRule Scanner.takeDiagnostics
  cases h : (query.run (Reader.ofText text)).2.scanner.diagnostics.toList with
  | nil => simp [h]
  | cons d ds => simp [h]

/-! ## Where the reader stops -/

/-- The reader stops where the tokens of its text cease to be the start of a
sentence, and has recorded just the problems before that token. -/
theorem exists_stop (text : String) :
    ∃ k problems, StopsAt (kindsOf text) k ∧ ProblemsBefore text k problems ∧
      problems <+: (tokenize text).2 ∧
      ((Scanner.ofText text).after (k + 1)).diagnostics.toList = problems ∧
      (query.run (Reader.ofText text)).2.scanner.diagnostics.toList = problems ∧
      ((∃ d : Sentence, d.Respects ∧ d.kinds = kindsOf text ∧ problems = (tokenize text).2 ∧
          (query.run (Reader.ofText text)).1 = .ok d.statement) ∨
        ¬ Derivable (kindsOf text) ∧
          ∃ fault, (query.run (Reader.ofText text)).1 = .error fault ∧
            (tokenize text).1[k]? = some fault.found) := by
  obtain ⟨k, hstops, hcases⟩ := query_cases (reads_ofText text) (ends_kindsOf text)
  obtain ⟨problems, hbefore, hprefix, hrecorded⟩ := exists_problemsBefore hstops.lt
  refine ⟨k, problems, hstops, hbefore, hprefix, by rw [← scanner_iterate, hrecorded], ?_⟩
  rcases hcases with ⟨d, hrespects, hkinds, hrun⟩ | ⟨hnot, fault, hrun, hfound⟩
  · obtain ⟨token, -, -, hend⟩ := at_end text
    have hlast : k + 1 = (kindsOf text).length := by
      rcases hstops.here with hno | ⟨-, hlast⟩
      · exact absurd ⟨d, hkinds ▸ List.take_prefix _ _⟩ hno
      · exact hlast
    have hall : problems = (tokenize text).2 :=
      hrecorded.symm.trans (hend k (by omega)).2
    refine ⟨?_, Or.inl ⟨d, hrespects, hkinds, hall, by rw [hrun]⟩⟩
    rw [hrun, hall]
    exact (hend _ (Nat.le_succ _)).2
  · have hlt : k < (tokenize text).1.length := by simpa [kindsOf] using hstops.lt
    refine ⟨by rw [hrun]; exact hrecorded, Or.inr ⟨hnot, fault, by rw [hrun], ?_⟩⟩
    rw [hfound, tokenAt_ofText (List.getElem?_eq_getElem hlt), List.getElem?_eq_getElem hlt]

/-- Of all tokens at once the grammar makes the statement of the sentence with
these tokens that respects the binding of operators. -/
theorem verdict_eq_ok_iff (text : String) (s : Statement) :
    verdict (tokenize text).1 = .ok s ↔
      ∃ d : Sentence, d.Respects ∧ d.kinds = kindsOf text ∧ d.statement = s := by
  obtain ⟨k, problems, -, -, -, -, -, hcases⟩ := exists_stop text
  rw [verdict_eq]
  constructor
  · intro h
    rcases hcases with ⟨d, hrespects, hkinds, -, hrun⟩ | ⟨-, fault, hrun, -⟩
    · rw [hrun] at h
      cases h
      exact ⟨d, hrespects, hkinds, rfl⟩
    · rw [hrun] at h
      cases h
  · rintro ⟨d, hrespects, hkinds, rfl⟩
    rcases hcases with ⟨d', hrespects', hkinds', -, hrun⟩ | ⟨hnot, -⟩
    · rw [Sentence.eq_of_kinds_eq hrespects hrespects' (hkinds.trans hkinds'.symm), hrun]
      rfl
    · exact absurd ⟨d, hkinds⟩ hnot

/-- A query is read exactly if its text has no problems and its tokens are those
of a sentence. -/
theorem parse_eq_ok_iff (text : String) (s : Statement) :
    parse text = .ok s ↔
      (tokenize text).2 = [] ∧
        ∃ d : Sentence, d.Respects ∧ d.kinds = kindsOf text ∧ d.statement = s := by
  obtain ⟨k, problems, -, -, hprefix, -, hrecorded, hcases⟩ := exists_stop text
  rw [← verdict_eq_ok_iff, parse_eq, hrecorded, ← verdict_eq]
  constructor
  · intro h
    split at h
    · rename_i hnone
      rcases hcases with ⟨d, -, -, hall, -⟩ | ⟨hnot, -⟩
      · exact ⟨hall ▸ hnone, h⟩
      · obtain ⟨d, -, hkinds, -⟩ := (verdict_eq_ok_iff text s).mp h
        exact absurd ⟨d, hkinds⟩ hnot
    · cases h
  · rintro ⟨hclean, h⟩
    rw [hclean] at hprefix
    rw [if_pos (List.prefix_nil.mp hprefix)]
    exact h

theorem derivable_iff (kinds : List Token.Kind) :
    Derivable kinds ↔ ∃ d : Sentence, d.Respects ∧ d.kinds = kinds := by
  constructor
  · rintro ⟨d, rfl⟩
    exact d.exists_respects
  · rintro ⟨d, -, hkinds⟩
    exact ⟨d, hkinds⟩

theorem exists_parse_iff (text : String) :
    (∃ s, parse text = .ok s) ↔ (tokenize text).2 = [] ∧ Derivable (kindsOf text) := by
  simp only [parse_eq_ok_iff, derivable_iff]
  constructor
  · rintro ⟨s, hclean, d, hrespects, hkinds, -⟩
    exact ⟨hclean, d, hrespects, hkinds⟩
  · rintro ⟨hclean, d, hrespects, hkinds⟩
    exact ⟨d.statement, hclean, d, hrespects, hkinds, rfl⟩

/-! ## The laws -/

/-- A text is read as a statement exactly if it has no problems and the statement
is that of a sentence with its tokens that respects the binding of operators.
Tokens that make a sentence at all make exactly one such, so all of them are
read, and nothing else is. -/
theorem a_query_is_read_as_its_one_sentence (text : String) :
    (∀ s, parse text = .ok s ↔
      (tokenize text).2 = [] ∧
        ∃ d : Sentence, d.Respects ∧ d.kinds = kindsOf text ∧ d.statement = s) ∧
    ((∃ s, parse text = .ok s) ↔ (tokenize text).2 = [] ∧ Derivable (kindsOf text)) ∧
    (Derivable (kindsOf text) ↔ ∃! d : Sentence, d.Respects ∧ d.kinds = kindsOf text) := by
  refine ⟨parse_eq_ok_iff text, exists_parse_iff text, ?_⟩
  rw [derivable_iff]
  constructor
  · rintro ⟨d, hrespects, hkinds⟩
    refine ⟨d, ⟨hrespects, hkinds⟩, ?_⟩
    rintro d' ⟨hrespects', hkinds'⟩
    exact Sentence.eq_of_kinds_eq hrespects' hrespects (hkinds'.trans hkinds.symm)
  · rintro ⟨d, hd, -⟩
    exact ⟨d, hd⟩

/-- Reading token by token is reading all tokens at once. There is one token
where reading stops. If problems lie before it, the error is those problems, as
they were recorded up to it; otherwise the answer is that of the grammar on all
tokens, and a fault of it points to that token. -/
theorem reading_on_demand_is_reading_at_once (text : String) :
    ∃ k problems,
      (StopsAt (kindsOf text) k ∧ ∀ j, StopsAt (kindsOf text) j → j = k) ∧
      ProblemsBefore text k problems ∧
      problems <+: (tokenize text).2 ∧
      ((Scanner.ofText text).after (k + 1)).diagnostics.toList = problems ∧
      parse text =
        (if problems = [] then verdict (tokenize text).1 else .error (.lexical problems)) ∧
      (∀ s, verdict (tokenize text).1 = .ok s ↔
        ∃ d : Sentence, d.Respects ∧ d.kinds = kindsOf text ∧ d.statement = s) ∧
      (∀ e, verdict (tokenize text).1 = .error e →
        ∃ fault, e = ParseError.ofFault fault ∧ (tokenize text).1[k]? = some fault.found) ∧
      ((∃ s, parse text = .ok s) ↔ (tokenize text).2 = [] ∧ Derivable (kindsOf text)) ∧
      ∀ ds, parse text = .error (.lexical ds) → ds ≠ [] ∧ ds <+: (tokenize text).2 := by
  obtain ⟨k, problems, hstops, hbefore, hprefix, hscanned, hrecorded, hcases⟩ := exists_stop text
  have hparse : parse text =
      if problems = [] then verdict (tokenize text).1 else .error (.lexical problems) := by
    rw [parse_eq, hrecorded, verdict_eq]
  refine ⟨k, problems, ⟨hstops, fun j hj => hj.unique hstops⟩, hbefore, hprefix, hscanned, hparse,
    verdict_eq_ok_iff text, ?_, exists_parse_iff text, ?_⟩
  · intro e he
    rw [verdict_eq] at he
    rcases hcases with ⟨d, -, -, -, hrun⟩ | ⟨-, fault, hrun, hfound⟩
    · rw [hrun] at he
      cases he
    · rw [hrun] at he
      cases he
      exact ⟨fault, rfl, hfound⟩
  · intro ds hds
    rw [hparse] at hds
    split at hds
    · -- A fault of the grammar is no problem of the text.
      rw [verdict_eq] at hds
      rcases hcases with ⟨d, -, -, -, hrun⟩ | ⟨-, fault, hrun, -⟩
      · rw [hrun] at hds
        cases hds
      · rw [hrun] at hds
        cases fault <;> cases hds
    · rename_i hne
      cases hds
      exact ⟨hne, hprefix⟩

end SelectQuery
