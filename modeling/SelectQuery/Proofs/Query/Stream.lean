-- What the reader of a text shows. It takes one token at a time from its
-- scanner; token for token these are the tokens of the text, and the problems
-- recorded at a token are those that lie before it.
import SelectQuery.Proofs.Grammar.Verdict
import SelectQuery.Proofs.Scan.Tokenization
import SelectQuery.Reader

namespace SelectQuery

/-! ## The kinds of the tokens -/

theorem kind_of_token? {item : Item} {token : Token} (h : item.token? = some token) :
    item.content = .inl token.kind := by
  unfold Item.token? at h
  split at h
  · rename_i kind hcontent
    cases h
    exact hcontent
  · cases h

theorem ends_kindsOf (text : String) : Ends (kindsOf text) := by
  obtain ⟨items, hgives⟩ := exists_gives text
  obtain ⟨found, before, rfl, hfound⟩ := hgives.last
  refine ⟨(tokensOf found).map Token.kind, ?_, ?_⟩
  · unfold kindsOf
    rw [hgives.tokenize_eq, tokensOf_append, List.map_append]
    rfl
  · intro hmem
    obtain ⟨token, htoken, hkind⟩ := List.mem_map.mp hmem
    obtain ⟨item, hitem, hsome⟩ := List.mem_filterMap.mp htoken
    apply hfound item hitem
    rw [kind_of_token? hsome, hkind]

/-! ## Token after token -/

/-- The scanner after `n` tokens. -/
def Scanner.after (scanner : Scanner) (n : Nat) : Scanner :=
  (fun s => s.nextToken.2)^[n] scanner

theorem Scanner.after_succ (scanner : Scanner) (n : Nat) :
    scanner.after (n + 1) = scanner.nextToken.2.after n := by
  unfold after
  rw [Function.iterate_succ_apply]

theorem Scanner.after_add (scanner : Scanner) (m n : Nat) :
    scanner.after (m + n) = (scanner.after m).after n := by
  unfold after
  rw [Nat.add_comm, Function.iterate_add_apply]

/-- A token among items is the first after some problems, or it comes after that
first one. -/
theorem token_cases {problems front more others : List Item} {first item : Item} {token : Token}
    (h : front ++ item :: more = problems ++ first :: others) (hproblems : tokensOf problems = [])
    (hitem : item.token? = some token) :
    (front = problems ∧ item = first ∧ more = others) ∨
      ∃ middle, front = problems ++ first :: middle ∧ others = middle ++ item :: more := by
  rcases List.append_eq_append_iff.mp h with ⟨m, rfl, hm⟩ | ⟨m, rfl, hm⟩
  · cases m with
    | nil =>
      obtain ⟨rfl, rfl⟩ := List.cons.inj hm
      exact Or.inl ⟨by simp, rfl, rfl⟩
    | cons x m =>
      obtain ⟨rfl, -⟩ := List.cons.inj hm
      simp [tokensOf, hitem] at hproblems
  · cases m with
    | nil =>
      obtain ⟨rfl, rfl⟩ := List.cons.inj hm
      exact Or.inl ⟨by simp, rfl, rfl⟩
    | cons x m =>
      obtain ⟨rfl, rfl⟩ := List.cons.inj hm
      exact Or.inr ⟨m, rfl, rfl⟩

/-- After as many tokens as lie before an item comes the token of that item.
With it, the problems before it have been recorded. -/
theorem Scanner.after_of_shows {scanner : Scanner} {text : List Char} {front more : List Item}
    {item : Item} {token : Token} (h : scanner.Shows text (front ++ item :: more))
    (hitem : item.token? = some token) :
    (scanner.after (tokensOf front).length).nextToken.1 = token ∧
      (scanner.after ((tokensOf front).length + 1)).diagnostics.toList =
        scanner.diagnostics.toList ++ diagnosticsOf front ∧
      (scanner.after ((tokensOf front).length + 1)).Shows text
        (if more = [] then [item] else more) := by
  induction hn : front.length using Nat.strongRecOn generalizing scanner front with
  | _ n ih =>
    obtain ⟨problems, first, others, hsplit, hproblems, hfirst, hrecorded, hshows, -⟩ :=
      nextToken_of_shows h
    rcases token_cases hsplit hproblems hitem with ⟨rfl, rfl, rfl⟩ | ⟨middle, rfl, rfl⟩
    · rw [hproblems, List.length_nil, after_succ]
      refine ⟨?_, hrecorded, hshows⟩
      rw [hfirst] at hitem
      exact Option.some.inj hitem
    · have hcount : (tokensOf (problems ++ first :: middle)).length =
          (tokensOf middle).length + 1 := by
        rw [tokensOf_append, hproblems]
        simp [tokensOf, hfirst]
      have hdiagnostics : diagnosticsOf (problems ++ first :: middle) =
          diagnosticsOf problems ++ diagnosticsOf middle := by
        rw [diagnosticsOf_append]
        simp [diagnosticsOf, diagnostic?_of_token? hfirst]
      rw [if_neg (by simp)] at hshows
      obtain ⟨htoken, hlater, hmore⟩ :=
        ih middle.length (by simp at hn; omega) hshows rfl
      rw [hcount, after_succ, after_succ, hdiagnostics, ← List.append_assoc, ← hrecorded]
      exact ⟨htoken, hlater, hmore⟩

/-- Once only the end of the query is left, it comes again and again. -/
theorem Scanner.after_end {scanner : Scanner} {text : List Char} {item : Item} {token : Token}
    (h : scanner.Shows text [item]) (hitem : item.token? = some token) (n : Nat) :
    (scanner.after n).nextToken.1 = token ∧
      (scanner.after n).diagnostics = scanner.diagnostics := by
  induction n generalizing scanner with
  | zero =>
    have hfirst : scanner.Shows text ([] ++ item :: []) := h
    exact ⟨(after_of_shows hfirst hitem).1, rfl⟩
  | succ n ih =>
    have hfirst : scanner.Shows text ([] ++ item :: []) := h
    obtain ⟨-, hrecorded, hshows⟩ := after_of_shows hfirst hitem
    obtain ⟨htoken, hlater⟩ := ih hshows
    rw [after_succ]
    refine ⟨htoken, hlater.trans ?_⟩
    rw [← Array.toList_inj]
    simpa [diagnosticsOf] using hrecorded

/-! ## The reader of a text -/

/-- The reader before the first token of a text. -/
def Reader.ofText (text : String) : Reader :=
  Reader.ofScanner (Scanner.ofText text)

theorem iterate_advance (scanner : Scanner) (n : Nat) :
    advance^[n] (Reader.ofScanner scanner) = Reader.ofScanner (scanner.after n) := by
  induction n generalizing scanner with
  | zero => rfl
  | succ n ih =>
    rw [Function.iterate_succ_apply, Scanner.after_succ]
    exact ih scanner.nextToken.2

theorem tokenAt_reader (text : String) (n : Nat) :
    tokenAt (Reader.ofText text) n = ((Scanner.ofText text).after n).nextToken.1 := by
  unfold tokenAt Reader.ofText
  rw [iterate_advance]
  rfl

theorem scanner_iterate (text : String) (n : Nat) :
    (advance^[n] (Reader.ofText text)).scanner = (Scanner.ofText text).after (n + 1) := by
  unfold Reader.ofText
  rw [iterate_advance, Scanner.after_add _ n 1]
  rfl

/-- A token by its number stands at an item with as many tokens before it. -/
theorem exists_item {items : List Item} {k : Nat} {token : Token}
    (h : (tokensOf items)[k]? = some token) :
    ∃ front item more, items = front ++ item :: more ∧ (tokensOf front).length = k ∧
      item.token? = some token := by
  induction items generalizing k with
  | nil => simp [tokensOf] at h
  | cons item items ih =>
    cases hitem : item.token? with
    | none =>
      have hskip : tokensOf (item :: items) = tokensOf items := by simp [tokensOf, hitem]
      rw [hskip] at h
      obtain ⟨front, found, more, rfl, hk, hfound⟩ := ih h
      exact ⟨item :: front, found, more, rfl, by simpa [tokensOf, hitem] using hk, hfound⟩
    | some first =>
      have hcons : tokensOf (item :: items) = first :: tokensOf items := by simp [tokensOf, hitem]
      rw [hcons] at h
      cases k with
      | zero =>
        obtain rfl : first = token := by simpa using h
        exact ⟨[], item, items, rfl, rfl, hitem⟩
      | succ k =>
        obtain ⟨front, found, more, rfl, hk, hfound⟩ := ih (by simpa using h)
        exact ⟨item :: front, found, more, rfl, by simp [tokensOf, hitem] at hk ⊢; exact hk, hfound⟩

theorem tokenAt_ofText {text : String} {k : Nat} {token : Token}
    (h : (tokenize text).1[k]? = some token) : tokenAt (Reader.ofText text) k = token := by
  obtain ⟨items, hgives⟩ := exists_gives text
  rw [hgives.tokenize_eq] at h
  obtain ⟨front, item, more, rfl, rfl, hitem⟩ := exists_item h
  rw [tokenAt_reader]
  exact (Scanner.after_of_shows hgives.shows hitem).1

/-- The reader shows the tokens of its text. -/
theorem reads_ofText (text : String) :
    Reads (Reader.ofText text) (kindsOf text)
      (advance^[(kindsOf text).length] (Reader.ofText text)) := by
  rw [reads_iff]
  refine ⟨rfl, ?_⟩
  intro i hi
  have hlt : i < (tokenize text).1.length := by simpa [kindsOf] using hi
  rw [tokenAt_ofText (List.getElem?_eq_getElem hlt)]
  simp [kindsOf]

/-- At a token the reader has recorded the problems before it. -/
theorem diagnostics_at {text : String} {front more : List Item} {item : Item} {token : Token}
    (hgives : Gives text (front ++ item :: more)) (hitem : item.token? = some token) :
    (advance^[(tokensOf front).length] (Reader.ofText text)).scanner.diagnostics.toList =
      diagnosticsOf front := by
  rw [scanner_iterate, (Scanner.after_of_shows hgives.shows hitem).2.1]
  rfl

/-- From the end of the query on, the reader shows nothing else and has recorded
all problems. -/
theorem at_end (text : String) :
    ∃ token, (tokenize text).1.getLast? = some token ∧ token.kind = .endOfInput ∧
      ∀ i, (kindsOf text).length ≤ i + 1 → tokenAt (Reader.ofText text) i = token ∧
        (advance^[i] (Reader.ofText text)).scanner.diagnostics.toList = (tokenize text).2 := by
  obtain ⟨items, hgives⟩ := exists_gives text
  obtain ⟨found, before, rfl, -⟩ := hgives.last
  have hitem : (Item.mk before (.inl .endOfInput)).token? =
      some ⟨.endOfInput, 1 + lineFeeds before⟩ := rfl
  obtain ⟨hfirst, hrecorded, hshows⟩ := Scanner.after_of_shows hgives.shows hitem
  rw [if_pos rfl] at hshows
  have htokens : (tokenize text).1 = tokensOf found ++ [⟨.endOfInput, 1 + lineFeeds before⟩] := by
    rw [hgives.tokenize_eq, tokensOf_append]
    rfl
  have hproblems : (tokenize text).2 = diagnosticsOf found := by
    rw [hgives.tokenize_eq, diagnosticsOf_append]
    simp [diagnosticsOf, Item.diagnostic?]
  refine ⟨_, by rw [htokens, List.getLast?_concat], rfl, ?_⟩
  intro i hi
  obtain ⟨n, rfl⟩ : ∃ n, i = (tokensOf found).length + n := by
    apply Nat.exists_eq_add_of_le
    simpa [kindsOf, htokens] using hi
  rw [tokenAt_reader, scanner_iterate, hproblems]
  constructor
  · cases n with
    | zero => exact hfirst
    | succ n =>
      rw [Nat.add_comm n 1, ← Nat.add_assoc, Scanner.after_add]
      exact (Scanner.after_end hshows hitem n).1
  · rw [Nat.add_right_comm, Scanner.after_add, (Scanner.after_end hshows hitem n).2, hrecorded]
    rfl

end SelectQuery
