-- The laws of the place of an error. A text goes wrong at a problem, or at a
-- token with which no sentence goes on. The error of a query stands on the line
-- of the first such place, and an error of the grammar shows the token there.
import SelectQuery.Proofs.Query.Parsing

namespace SelectQuery

/-! ## Where a text goes wrong -/

/-- An item is wrong among others: it is a problem, or a token with which no
sentence goes on from the tokens before it. -/
def Item.WrongIn (items : List Item) (item : Item) : Prop :=
  item.diagnostic?.isSome ∨
    ∃ token, item.token? = some token ∧
      ¬ Viable ((tokensOf (itemsBefore items item)).map Token.kind ++ [token.kind])

/-- The item is wrong, and nothing before it in the text is. -/
def FirstWrong (text : String) (item : Item) : Prop :=
  ∃ items, Gives text items ∧ item ∈ items ∧ item.WrongIn items ∧
    ∀ other ∈ items, other.WrongIn items → item.place ≤ other.place

/-- A token and those before it are the tokens of the text up to it. -/
theorem kinds_upTo {text : String} {front more : List Item} {item : Item} {token : Token}
    (hgives : Gives text (front ++ item :: more)) (hitem : item.token? = some token) :
    (tokensOf front).map Token.kind ++ [token.kind] =
      (kindsOf text).take ((tokensOf front).length + 1) := by
  have hall : kindsOf text =
      ((tokensOf front).map Token.kind ++ [token.kind]) ++ (tokensOf more).map Token.kind := by
    unfold kindsOf
    rw [hgives.tokenize_eq, tokensOf_append]
    simp [tokensOf, hitem]
  rw [hall, List.take_left' (by simp)]

/-- A token is wrong exactly if no sentence starts with the tokens up to it. -/
theorem wrongIn_token_iff {text : String} {front more : List Item} {item : Item} {token : Token}
    (hgives : Gives text (front ++ item :: more)) (hitem : item.token? = some token) :
    item.WrongIn (front ++ item :: more) ↔
      ¬ Viable ((kindsOf text).take ((tokensOf front).length + 1)) := by
  have hkinds := kinds_upTo hgives hitem
  unfold Item.WrongIn
  rw [itemsBefore_eq hgives.pairwise, Scanner.diagnostic?_of_token? hitem]
  constructor
  · rintro (hsome | ⟨other, hother, hnot⟩)
    · cases hsome
    · obtain rfl : token = other := Option.some.inj (hitem.symm.trans hother)
      rwa [← hkinds]
  · intro hnot
    exact Or.inr ⟨token, hitem, by rwa [hkinds]⟩

/-- Before the token where reading stops, only a problem is wrong. -/
theorem not_wrongIn_before {text : String} {k : Nat} {front more : List Item} {item other : Item}
    (hgives : Gives text (front ++ item :: more)) (hstops : StopsAt (kindsOf text) k)
    (hk : (tokensOf front).length = k) (hmem : other ∈ front)
    (hclean : other.diagnostic? = none) : ¬ other.WrongIn (front ++ item :: more) := by
  obtain ⟨before, after, rfl⟩ := List.append_of_mem hmem
  have heq : (before ++ other :: after) ++ item :: more =
      before ++ other :: (after ++ item :: more) := by simp
  rw [heq] at hgives ⊢
  intro hwrong
  cases htoken : other.token? with
  | none =>
    unfold Item.WrongIn at hwrong
    simp [hclean, htoken] at hwrong
  | some token =>
    have hlt : (tokensOf before).length < k := by
      rw [← hk, tokensOf_append, List.length_append]
      simp [tokensOf, htoken]
    exact (wrongIn_token_iff hgives htoken).mp hwrong (hstops.viable _ hlt)

/-- Where all items before a wrong one are right, it is the first wrong one. -/
theorem firstWrong_of_split {text : String} {front more : List Item} {item : Item}
    (hgives : Gives text (front ++ item :: more)) (hwrong : item.WrongIn (front ++ item :: more))
    (hfront : ∀ other ∈ front, ¬ other.WrongIn (front ++ item :: more)) :
    FirstWrong text item := by
  refine ⟨_, hgives, by simp, hwrong, ?_⟩
  intro other hmem hother
  rcases List.mem_append.mp hmem with hmem | hmem
  · exact absurd hother (hfront other hmem)
  · rcases List.mem_cons.mp hmem with rfl | hmem
    · exact Nat.le_refl _
    · obtain ⟨-, hlater, -⟩ := List.pairwise_append.mp hgives.pairwise
      exact Nat.le_of_lt ((List.pairwise_cons.mp hlater).1 other hmem)

/-- The first problem among items stands after tokens only. -/
theorem exists_first_diagnostic {items : List Item} {d : Diagnostic} {ds : List Diagnostic}
    (h : diagnosticsOf items = d :: ds) :
    ∃ front item more, items = front ++ item :: more ∧ item.diagnostic? = some d ∧
      ∀ other ∈ front, other.diagnostic? = none := by
  obtain ⟨front, item, more, rfl, hfront, hitem, -⟩ := List.filterMap_eq_cons_iff.mp h
  exact ⟨front, item, more, rfl, hitem, hfront⟩

theorem line_of_diagnostic? {item : Item} {d : Diagnostic} (h : item.diagnostic? = some d) :
    d.line = item.line := by
  unfold Item.diagnostic? at h
  split at h
  · cases h
  · cases h
    rfl

theorem line_of_token? {item : Item} {token : Token} (h : item.token? = some token) :
    token.line = item.line := by
  unfold Item.token? at h
  split at h
  · cases h
    rfl
  · cases h

/-! ## The first wrong place -/

/-- Problems before the token where reading stops: the first of them is the
first wrong place. -/
theorem firstWrong_of_problems {text : String} {k : Nat} {d : Diagnostic} {ds : List Diagnostic}
    (hstops : StopsAt (kindsOf text) k) (hbefore : ProblemsBefore text k (d :: ds)) :
    ∃ item, FirstWrong text item ∧ d.line = item.line := by
  obtain ⟨items, stop, hgives, hmem, -, hk, hproblems⟩ := hbefore
  obtain ⟨front, more, rfl⟩ := List.append_of_mem hmem
  rw [itemsBefore_eq hgives.pairwise] at hk hproblems
  obtain ⟨early, item, late, rfl, hitem, hearly⟩ := exists_first_diagnostic hproblems
  refine ⟨item, ?_, line_of_diagnostic? hitem⟩
  have heq : (early ++ item :: late) ++ stop :: more =
      early ++ item :: (late ++ stop :: more) := by simp
  have hright : ∀ other ∈ early, ¬ other.WrongIn ((early ++ item :: late) ++ stop :: more) :=
    fun other hother => not_wrongIn_before hgives hstops hk
      (List.mem_append_left _ hother) (hearly other hother)
  rw [heq] at hgives hright
  exact firstWrong_of_split hgives (Or.inl (by simp [hitem])) hright

/-- No problems before a token with which no sentence goes on: that token is the
first wrong place. -/
theorem firstWrong_of_token {text : String} {k : Nat} {token : Token}
    (hstops : StopsAt (kindsOf text) k) (hbefore : ProblemsBefore text k [])
    (htoken : (tokenize text).1[k]? = some token)
    (hnot : ¬ Viable ((kindsOf text).take (k + 1))) :
    ∃ item, FirstWrong text item ∧ token.line = item.line := by
  obtain ⟨items, item, hgives, hmem, hsome, hk, hclean⟩ := hbefore
  obtain ⟨front, more, rfl⟩ := List.append_of_mem hmem
  rw [itemsBefore_eq hgives.pairwise] at hk hclean
  obtain ⟨found, hfound⟩ := Option.isSome_iff_exists.mp hsome
  have htokens : (tokenize text).1 = tokensOf front ++ found :: tokensOf more := by
    rw [hgives.tokenize_eq, tokensOf_append]
    simp [tokensOf, hfound]
  have heq : found = token := by
    rw [htokens, ← hk] at htoken
    simpa using htoken
  refine ⟨item, firstWrong_of_split hgives ?_ ?_, heq ▸ line_of_token? hfound⟩
  · rw [wrongIn_token_iff hgives hfound, hk]
    exact hnot
  · intro other hother
    have hnone : other.diagnostic? = none := List.filterMap_eq_nil_iff.mp hclean other hother
    exact not_wrongIn_before hgives hstops hk hother hnone

/-! ## How a query fails -/

/-- A query fails with the problems before the token where reading stops, or it
has none of them and the grammar refuses that token. -/
theorem parse_error_cases {text : String} {e : ParseError} (h : parse text = .error e) :
    ∃ k, StopsAt (kindsOf text) k ∧
      ((∃ d ds, e = .lexical (d :: ds) ∧ ProblemsBefore text k (d :: ds)) ∨
        ∃ fault, e = ParseError.ofFault fault ∧ (tokenize text).1[k]? = some fault.found ∧
          ¬ Viable ((kindsOf text).take (k + 1)) ∧ ProblemsBefore text k []) := by
  obtain ⟨k, problems, hstops, hbefore, -, -, hrecorded, hcases⟩ := exists_stop text
  refine ⟨k, hstops, ?_⟩
  rw [parse_eq, hrecorded] at h
  cases problems with
  | cons d ds =>
    rw [if_neg (by simp)] at h
    cases h
    exact Or.inl ⟨d, ds, rfl, hbefore⟩
  | nil =>
    rw [if_pos rfl] at h
    rcases hcases with ⟨d, -, -, -, hrun⟩ | ⟨hnot, fault, hrun, hfound⟩
    · rw [hrun] at h
      cases h
    · rw [hrun] at h
      cases h
      refine Or.inr ⟨fault, rfl, hfound, ?_, hbefore⟩
      rcases hstops.here with hno | ⟨hderivable, -⟩
      · exact hno
      · exact absurd hderivable hnot

theorem StopsAt.viable_take {kinds : List Token.Kind} {k : Nat} (h : StopsAt kinds k) :
    Viable (kinds.take k) := by
  cases k with
  | succ k => exact h.viable k (Nat.lt_succ_self k)
  | zero =>
    let star : Sentence :=
      { columns := [.star], columns_ne := by simp, table := "t", filter := none, clauses := [],
        clauses_proper := by simp }
    exact ⟨star, by simp⟩

/-! ## The law -/

/-- An error of the grammar shows a token of the text. No problem lies before it,
the tokens before it are the start of a sentence, and with it they are not. Every
error stands on the line of the first place where the text goes wrong. -/
theorem an_error_stands_at_the_first_problem (text : String) (e : ParseError)
    (h : parse text = .error e) :
    (e.isSyntax = true → ∃ k token found,
      (tokenize text).1[k]? = some token ∧
      found = (if token.kind = .endOfInput then "end of input" else token.kind.display) ∧
      ((∃ expected, e = .unexpected expected found token.line) ∨
        e = .emptyColumns found token.line) ∧
      Viable ((kindsOf text).take k) ∧
      ¬ Viable ((kindsOf text).take (k + 1)) ∧
      ProblemsBefore text k []) ∧
    ∃ item, FirstWrong text item ∧ e.line? = some item.line := by
  obtain ⟨k, hstops, hcases⟩ := parse_error_cases h
  rcases hcases with ⟨d, ds, rfl, hbefore⟩ | ⟨fault, rfl, hfound, hnot, hbefore⟩
  · refine ⟨by simp [ParseError.isSyntax], ?_⟩
    obtain ⟨item, hfirst, hline⟩ := firstWrong_of_problems hstops hbefore
    exact ⟨item, hfirst, by simp [ParseError.line?, hline]⟩
  · constructor
    · intro _
      refine ⟨k, fault.found, fault.found.kind.describe, hfound, ?_, ?_,
        hstops.viable_take, hnot, hbefore⟩
      · cases fault.found.kind <;> rfl
      · cases fault with
        | unexpected expected found => exact Or.inl ⟨expected.describe, rfl⟩
        | noColumns found => exact Or.inr rfl
    · obtain ⟨item, hfirst, hline⟩ := firstWrong_of_token hstops hbefore hfound hnot
      exact ⟨item, hfirst, by rw [ParseError.line?_ofFault, hline]⟩

/-- The closing parenthesis on line 2 comes before the stray character. -/
theorem an_error_stands_before_a_stray_character :
    parse "select a from t\nwhere (b = ) ?" =
        .error (.unexpected "value or '('" "RPAREN" 2) ∧
      ∃ item, FirstWrong "select a from t\nwhere (b = ) ?" item ∧ item.line = 2 := by
  have h : parse "select a from t\nwhere (b = ) ?" =
      .error (.unexpected "value or '('" "RPAREN" 2) := by decide +kernel
  obtain ⟨item, hfirst, hline⟩ := (an_error_stands_at_the_first_problem _ _ h).2
  exact ⟨h, item, hfirst, (Option.some.inj hline).symm⟩

end SelectQuery
