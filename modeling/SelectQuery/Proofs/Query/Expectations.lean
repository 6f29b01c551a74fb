-- The law of what an error asks for. The words of an error of the grammar name
-- kinds of tokens; the one it shows is of none of them, and with any of them in its
-- place a sentence goes on. Only right after the keywords that open a list of
-- columns is such a list said to be missing.
import SelectQuery.Proofs.Grammar.Openings
import SelectQuery.Proofs.Query.FirstProblem

namespace SelectQuery

open Grammar

/-! ## What words ask for -/

/-- The words of an error ask for a kind of token. This is how a reader of the error
takes them; there are no other words. -/
inductive AsksFor : String → Token.Kind → Prop
  | selectKeyword : AsksFor "SELECT" (.keyword .selectKw)
  | fromKeyword : AsksFor "FROM" (.keyword .fromKw)
  | byKeyword : AsksFor "BY" (.keyword .byKw)
  | tableName (n : String) : AsksFor "table name" (.name n)
  | argument (n : String) : AsksFor "function argument" (.name n)
  | star : AsksFor "column specification" (.mark .star)
  | column (n : String) : AsksFor "column specification" (.name n)
  | closingParen : AsksFor "')'" (.mark .rparen)
  | limitNumber (n : Int64) : AsksFor "integer after LIMIT" (.number n)
  | numberValue (n : Int64) : AsksFor "value or '('" (.number n)
  | stringValue (s : String) : AsksFor "value or '('" (.string s)
  | nameValue (n : String) : AsksFor "value or '('" (.name n)
  | openingParen : AsksFor "value or '('" (.mark .lparen)
  | endOfInput : AsksFor "end of input" .endOfInput

/-- Words that ask for something are those for an expectation. -/
theorem AsksFor.exists_expectation {words : String} {kind : Token.Kind} (h : AsksFor words kind) :
    ∃ expected : Expectation, expected.describe = words ∧ expected.accepts kind = true := by
  cases h with
  | selectKeyword => exact ⟨.selectKeyword, rfl, rfl⟩
  | fromKeyword => exact ⟨.fromKeyword, rfl, rfl⟩
  | byKeyword => exact ⟨.byKeyword, rfl, rfl⟩
  | tableName n => exact ⟨.tableName, rfl, rfl⟩
  | argument n => exact ⟨.argument, rfl, rfl⟩
  | star => exact ⟨.column, rfl, rfl⟩
  | column n => exact ⟨.column, rfl, rfl⟩
  | closingParen => exact ⟨.closingParen, rfl, rfl⟩
  | limitNumber n => exact ⟨.limitNumber, rfl, rfl⟩
  | numberValue n => exact ⟨.value, rfl, rfl⟩
  | stringValue s => exact ⟨.value, rfl, rfl⟩
  | nameValue n => exact ⟨.value, rfl, rfl⟩
  | openingParen => exact ⟨.value, rfl, rfl⟩
  | endOfInput => exact ⟨.endOfInput, rfl, rfl⟩

/-- The words for an expectation ask for no kinds but those that meet it. -/
theorem AsksFor.accepts {expected : Expectation} {kind : Token.Kind}
    (h : AsksFor expected.describe kind) : expected.accepts kind = true := by
  obtain ⟨other, hwords, haccepts⟩ := h.exists_expectation
  rwa [← Expectation.describe_inj hwords]

/-- Whatever is expected, the words for it ask for something. -/
theorem exists_asksFor (expected : Expectation) : ∃ kind, AsksFor expected.describe kind := by
  cases expected with
  | selectKeyword => exact ⟨_, .selectKeyword⟩
  | fromKeyword => exact ⟨_, .fromKeyword⟩
  | tableName => exact ⟨_, .tableName "t"⟩
  | column => exact ⟨_, .star⟩
  | argument => exact ⟨_, .argument "a"⟩
  | closingParen => exact ⟨_, .closingParen⟩
  | limitNumber => exact ⟨_, .limitNumber 1⟩
  | byKeyword => exact ⟨_, .byKeyword⟩
  | value => exact ⟨_, .openingParen⟩
  | endOfInput => exact ⟨_, .endOfInput⟩

/-! ## The fault behind an error -/

/-- An error of the grammar reports a fault of the reader. -/
theorem exists_fault_of_error {text : String} {e : ParseError} (hparse : parse text = .error e)
    (hgrammar : ∀ problems, e ≠ .lexical problems) :
    ∃ fault reader, query.run (Reader.ofText text) = (.error fault, reader) ∧
      e = .ofFault fault := by
  rw [parse_eq] at hparse
  split at hparse
  · rcases hrun : query.run (Reader.ofText text) with ⟨fault | statement, reader⟩
    · rw [hrun] at hparse
      cases hparse
      exact ⟨fault, reader, rfl, rfl⟩
    · rw [hrun] at hparse
      cases hparse
  · cases hparse
    exact absurd rfl (hgrammar _)

/-- The tokens before one that the reader of a text stops at. -/
theorem reads_take {text : String} {k : Nat} (hk : k < (kindsOf text).length) :
    Reads (Reader.ofText text) ((kindsOf text).take k) (advance^[k] (Reader.ofText text)) ∧
      Token.Kind.endOfInput ∉ (kindsOf text).take k := by
  have hsplit := List.take_append_drop k (kindsOf text)
  rw [List.drop_eq_getElem_cons hk] at hsplit
  constructor
  · have hreads := reads_ofText text
    rw [← hsplit] at hreads
    obtain ⟨reader, hfront, -⟩ := reads_append.mp hreads
    have hreader := (reads_iff.mp hfront).1
    rw [List.length_take_of_le (Nat.le_of_lt hk)] at hreader
    exact hreader ▸ hfront
  · have hends := ends_kindsOf text
    rw [← hsplit] at hends
    exact hends.not_mem

/-- The fault stands at the first token with which no sentence goes on. It is right
there, and it fits the token before. -/
theorem fault_of_text {text : String} {fault : Fault} {reader : Reader}
    (hrun : query.run (Reader.ofText text) = (.error fault, reader)) :
    ∃ k, StopsAt (kindsOf text) k ∧ ¬ Viable ((kindsOf text).take (k + 1)) ∧
      (tokenize text).1[k]? = some fault.found ∧
      fault.Right fault.found (fun more => Derivable ((kindsOf text).take k ++ more)) ∧
      fault.Fits ((kindsOf text).take k).getLast? := by
  obtain ⟨k, hstops, hnot, rfl, hright⟩ :=
    fault_cases (reads_ofText text) (ends_kindsOf text) hrun
  obtain ⟨w, hw, hnoend, hfits⟩ := fits_of_query hrun
  obtain ⟨hreads, hend⟩ := reads_take hstops.lt
  obtain rfl := reads_unique hw hreads hnoend hend
  have hlt : k < (tokenize text).1.length := by simpa [kindsOf] using hstops.lt
  have htoken : (tokenize text).1[k]? = some (tokenAt (Reader.ofText text) k) := by
    rw [tokenAt_ofText (List.getElem?_eq_getElem hlt), List.getElem?_eq_getElem hlt]
  rw [← hright.found_eq] at htoken hright
  exact ⟨k, hstops, hnot, htoken, hright, hfits⟩

/-! ## Tokens in the place of the one found -/

/-- With a kind that a fault asks for, some sentence starts with the tokens; with
the end of the query they are a sentence. -/
theorem Fault.Right.viable_append {fault : Fault} {found : Token} {front : List Token.Kind}
    (h : fault.Right found fun more => Derivable (front ++ more)) {kind : Token.Kind}
    (hkind : fault.accepts kind = true) :
    Viable (front ++ [kind]) ∧ (kind = .endOfInput → Derivable (front ++ [kind])) := by
  obtain ⟨more, d, hd⟩ := h.viable kind hkind
  refine ⟨⟨d, more, by simp [hd]⟩, ?_⟩
  rintro rfl
  -- Nothing comes after the end of the query.
  cases more with
  | nil => exact ⟨d, hd⟩
  | cons next rest =>
    have hends : Ends ((front ++ [.endOfInput]) ++ next :: rest) := by
      rw [List.append_assoc, List.singleton_append, ← hd]
      exact d.ends
    exact absurd (by simp) hends.not_mem

/-- The token before number `k` is the one with the number before. -/
theorem opensColumns_take_iff {kinds : List Token.Kind} {k : Nat} (hk : k < kinds.length) :
    OpensColumns (kinds.take k).getLast? ↔
      ∃ j, k = j + 1 ∧
        (kinds[j]? = some (.keyword .selectKw) ∨ kinds[j]? = some (.keyword .byKw)) := by
  cases k with
  | zero => simp [OpensColumns]
  | succ j =>
    have hlast : (kinds.take (j + 1)).getLast? = kinds[j]? := by
      rw [List.take_add_one, List.getElem?_eq_getElem (by omega), Option.toList_some,
        List.getLast?_concat]
    rw [hlast]
    simp [OpensColumns]

/-! ## The law -/

/-- An error of the grammar stands at the first token with which no sentence goes
on. Either its words ask for some kinds of tokens there: the token is of none of
them, and with any of them in place of the token some sentence starts with the
tokens, or is all of them if it is the end of the query. Or it says that a list of
columns is missing; it does so exactly if the token comes right after one of the
keywords that open such a list. -/
theorem an_error_asks_for_what_can_follow (text : String) (e : ParseError)
    (hparse : parse text = .error e) (hgrammar : ∀ problems, e ≠ .lexical problems) :
    ∃ k token, (tokenize text).1[k]? = some token ∧
      (∀ j ≤ k, Viable ((kindsOf text).take j)) ∧ ¬ Viable ((kindsOf text).take (k + 1)) ∧
      (e = .emptyColumns token.kind.describe token.line ∨
        ∃ words, e = .unexpected words token.kind.describe token.line ∧
          (∃ kind, AsksFor words kind) ∧ ¬ AsksFor words token.kind ∧
          ∀ kind, AsksFor words kind →
            Viable ((kindsOf text).take k ++ [kind]) ∧
            (kind = .endOfInput → Derivable ((kindsOf text).take k ++ [kind]))) ∧
      ((∃ found line, e = .emptyColumns found line) ↔
        ∃ j, k = j + 1 ∧ ((kindsOf text)[j]? = some (.keyword .selectKw) ∨
          (kindsOf text)[j]? = some (.keyword .byKw))) := by
  obtain ⟨fault, reader, hrun, rfl⟩ := exists_fault_of_error hparse hgrammar
  obtain ⟨k, hstops, hnot, htoken, hright, hfits⟩ := fault_of_text hrun
  refine ⟨k, fault.found, htoken, ?_, hnot, ?_, ?_⟩
  · intro j hj
    obtain ⟨d, hd⟩ := hstops.viable_take
    exact ⟨d, (List.take_prefix_take_left hj).trans hd⟩
  · cases fault with
    | noColumns found => exact Or.inl rfl
    | unexpected expected found =>
      refine Or.inr ⟨expected.describe, rfl, exists_asksFor expected, ?_, ?_⟩
      · intro hasks
        exact absurd hasks.accepts (Bool.eq_false_iff.mp hright.refused)
      · intro kind hasks
        exact hright.viable_append hasks.accepts
  · refine Iff.trans ?_ (opensColumns_take_iff hstops.lt)
    refine Iff.trans ?_ hfits
    cases fault with
    | noColumns found => simp [ParseError.ofFault]
    | unexpected expected found => simp [ParseError.ofFault]

/-- On line 2 a value is missing, and a string is one. -/
theorem a_missing_value_can_follow :
    parse "select a from t\nwhere b = order by c" =
        .error (.unexpected "value or '('" "ORDER" 2) ∧
      ∃ k, ¬ Viable ((kindsOf "select a from t\nwhere b = order by c").take (k + 1)) ∧
        Viable ((kindsOf "select a from t\nwhere b = order by c").take k ++ [.string "x"]) := by
  have hparse : parse "select a from t\nwhere b = order by c" =
      .error (.unexpected "value or '('" "ORDER" 2) := by decide +kernel
  refine ⟨hparse, ?_⟩
  obtain ⟨k, token, -, -, hnot, hcases, -⟩ :=
    an_error_asks_for_what_can_follow _ _ hparse (by simp)
  refine ⟨k, hnot, ?_⟩
  rcases hcases with h | ⟨words, h, -, -, hviable⟩
  · cases h
  · obtain ⟨rfl, -, -⟩ := ParseError.unexpected.inj h
    exact (hviable _ (.stringValue "x")).1

end SelectQuery
