-- An error of the grammar is final. The reader stops at the token that the error
-- shows, and all that it has read by then stays as it is with any other text
-- behind the query.
import SelectQuery.Proofs.Query.Parsing
import SelectQuery.Proofs.Scan.Joining
import SelectQuery.Proofs.Session.Reader

namespace SelectQuery

open Grammar

/-! ## The token that an error shows -/

/-- A message names the end of the query unlike any other token. -/
theorem Token.Kind.eq_end_of_describe {kind : Token.Kind}
    (h : kind.describe = Token.Kind.endOfInput.describe) : kind = .endOfInput := by
  have hfirst := congrArg (fun text => text.toList.head?) h
  cases kind with
  | endOfInput => rfl
  | keyword k => cases k <;> simp [describe, display, content?, label, Keyword.spelling] at hfirst
  | mark m => cases m <;> simp [describe, display, content?, label, Mark.label] at hfirst
  | name n => simp [describe, display, content?, label] at hfirst
  | number n => simp [describe, display, content?, label] at hfirst
  | string s => simp [describe, display, content?, label] at hfirst

theorem ParseError.ShowsToken.isSyntax {e : ParseError} {token : Token} (h : e.ShowsToken token) :
    e.isSyntax = true := by
  rcases h with ⟨expected, rfl⟩ | rfl
  · rfl
  · rfl

/-- A token that is shown as the one of a fault is named as that one. -/
theorem ParseError.ShowsToken.describe_eq {fault : Fault} {token : Token}
    (h : (ofFault fault).ShowsToken token) :
    fault.found.kind.describe = token.kind.describe := by
  rcases h with ⟨expected, h⟩ | h
  · cases fault with
    | unexpected wanted found => exact (ParseError.unexpected.inj h).2.1
    | noColumns found => cases h
  · cases fault with
    | unexpected wanted found => cases h
    | noColumns found => exact (ParseError.emptyColumns.inj h).1

/-! ## What an error depends on -/

/-- The reader shows the tokens of its first items, whatever comes after them. -/
theorem tokenAt_of_gives {text : String} {front more : List Item} (h : Gives text (front ++ more))
    {i : Nat} (hi : i < (tokensOf front).length) :
    tokenAt (Reader.ofText text) i = (tokensOf front)[i] := by
  apply tokenAt_ofText
  rw [h.tokenize_eq, tokensOf_append, List.getElem?_append_left hi]
  exact List.getElem?_eq_getElem hi

/-- With an error of the grammar the reader stops at a token that is not the end
of the query, with no problem recorded. It stops so at any reader with the same
tokens up to there. -/
theorem exists_stop_of_error {text : String} {e : ParseError} {token : Token}
    (hparse : parse text = .error e) (hshows : e.ShowsToken token)
    (hend : token.kind ≠ .endOfInput) :
    ∃ k fault, e = .ofFault fault ∧ (tokenAt (Reader.ofText text) k).kind ≠ .endOfInput ∧
      (advance^[k] (Reader.ofText text)).scanner.diagnostics.toList = [] ∧
      ∀ other : Reader, (∀ i ≤ k, tokenAt (Reader.ofText text) i = tokenAt other i) →
        query.run other = (.error fault, advance^[k] other) := by
  have hmatches : (query : Rule Reader Statement).MatchesAt (query : Rule Reader Statement)
      (Reader.ofText text) := matchesAt_query _
  obtain ⟨k, hstop, hfound, hsame⟩ := hmatches.exists_stop
  rw [parse_eq, hstop] at hparse
  by_cases hclean : (advance^[k] (Reader.ofText text)).scanner.diagnostics.toList = []
  · rw [if_pos hclean] at hparse
    rcases hrun : (query.run (Reader.ofText text)).1 with fault | statement
    · rw [hrun] at hparse hsame
      cases hparse
      refine ⟨k, fault, rfl, ?_, hclean, hsame⟩
      rw [← hfound fault hrun]
      intro hkind
      apply hend
      apply Token.Kind.eq_end_of_describe
      rw [← hshows.describe_eq, hkind]
    · rw [hrun] at hparse
      cases hparse
  · rw [if_neg hclean] at hparse
    cases hparse
    cases hshows.isSyntax

/-- A token that is not the end of the query stands at an item that is not the
last. -/
theorem exists_item_at {text : String} {items : List Item} {k : Nat} (hgives : Gives text items)
    (hkind : (tokenAt (Reader.ofText text) k).kind ≠ .endOfInput) :
    ∃ front item more, items = front ++ item :: more ∧ more ≠ [] ∧
      (tokensOf front).length = k ∧ item.token? = some (tokenAt (Reader.ofText text) k) := by
  have hk : k < (tokenize text).1.length := by
    obtain ⟨last, -, hlast, hafter⟩ := at_end text
    by_contra hle
    apply hkind
    rw [(hafter k ?_).1, hlast]
    rw [kindsOf, List.length_map]
    omega
  have htoken : (tokensOf items)[k]? = some (tokenAt (Reader.ofText text) k) := by
    rw [tokenAt_ofText (List.getElem?_eq_getElem hk), ← List.getElem?_eq_getElem hk,
      hgives.tokenize_eq]
  obtain ⟨front, item, more, rfl, hfront, hitem⟩ := exists_item htoken
  refine ⟨front, item, more, rfl, ?_, hfront, hitem⟩
  rintro rfl
  obtain ⟨found, before, hlast, -⟩ := hgives.last
  obtain ⟨-, hsingle⟩ := List.append_inj' hlast rfl
  obtain ⟨rfl, -⟩ := List.cons.inj hsingle
  have hcontent := kind_of_token? hitem
  exact hkind (Sum.inl.inj hcontent).symm

/-- An error of the grammar is fixed by the first items of the text. Among them is
no problem, and they are not all. -/
theorem exists_front_of_error {text : String} {e : ParseError} {token : Token}
    (hparse : parse text = .error e) (hshows : e.ShowsToken token)
    (hend : token.kind ≠ .endOfInput) :
    ∃ front more, Gives text (front ++ more) ∧ more ≠ [] ∧ diagnosticsOf front = [] ∧
      ∀ other others, Gives other (front ++ others) → parse other = .error e := by
  obtain ⟨k, fault, rfl, hkind, hclean, hrun⟩ := exists_stop_of_error hparse hshows hend
  obtain ⟨items, hgives⟩ := exists_gives text
  obtain ⟨front, item, more, rfl, hmore, rfl, hitem⟩ := exists_item_at hgives hkind
  rw [diagnostics_at hgives hitem] at hclean
  have hupTo : diagnosticsOf (front ++ [item]) = [] := by
    rw [diagnosticsOf_append, hclean]
    simp [diagnosticsOf, Scanner.diagnostic?_of_token? hitem]
  have hlength : (tokensOf (front ++ [item])).length = (tokensOf front).length + 1 := by
    rw [tokensOf_append]
    simp [tokensOf, hitem]
  rw [List.append_cons] at hgives
  refine ⟨front ++ [item], more, hgives, hmore, hupTo, ?_⟩
  intro other others hother
  have hsame : ∀ i ≤ (tokensOf front).length,
      tokenAt (Reader.ofText text) i = tokenAt (Reader.ofText other) i := by
    intro i hi
    have hlt : i < (tokensOf (front ++ [item])).length := by omega
    rw [tokenAt_of_gives hgives hlt, tokenAt_of_gives hother hlt]
  rw [← List.append_cons] at hother
  have hrecorded := (diagnostics_at hother hitem).trans hclean
  rw [parse_eq, hrun _ hsame, if_pos hrecorded]
  rfl

/-! ## The law -/

/-- An error of the grammar that does not show the end of the query is final. With
a blank and any text whatever behind it, the query has the very same error. -/
theorem an_error_of_the_grammar_is_final (text more : String) (w : Char) (e : ParseError)
    (token : Token) (hw : isBlank w = true) (hparse : parse text = .error e)
    (hshows : e.ShowsToken token) (hend : token.kind ≠ .endOfInput) :
    parse (text ++ w.toString ++ more) = .error e := by
  obtain ⟨front, others, hgives, hothers, hclean, hfixed⟩ :=
    exists_front_of_error hparse hshows hend
  have hclosed : ∀ item ∈ front, item.Closed := by
    apply closed_of_diagnosticsOf
    simp [hclean]
  obtain ⟨later, hlater⟩ := GivesAfter.keeps hgives hothers hclosed hw more.toList
  exact hfixed _ later hlater.gives

/-- The quote after the number is open at first and closed by the text behind it,
but the number has already been refused. -/
theorem a_refused_number_stays_refused :
    parse "select 1 'it" = .error (.emptyColumns "NUMBER(1)" 1) ∧
      parse ("select 1 'it" ++ Char.toString '\n' ++ "' from #") =
        .error (.emptyColumns "NUMBER(1)" 1) := by
  have hparse : parse "select 1 'it" = .error (.emptyColumns "NUMBER(1)" 1) := by
    decide +kernel
  have hshows : ParseError.ShowsToken (.emptyColumns "NUMBER(1)" 1) ⟨.number 1, 1⟩ :=
    Or.inr (by decide +kernel)
  exact ⟨hparse, an_error_of_the_grammar_is_final _ _ '\n' _ _ (by decide) hparse hshows
    (by simp)⟩

end SelectQuery
