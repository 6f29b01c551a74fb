-- The laws of requests to one reader, in any order and whatever becomes of them.
-- No token is lost or read twice, and no problem is left out or reported twice.
-- What the grammar makes of a request depends on nothing but the tokens ahead.
import SelectQuery.Proofs.Session.Scanner

namespace SelectQuery

variable {σ : Type} [TokenSource σ]

/-! ## Requests -/

/-- What can be asked of a reader. -/
inductive Request where
  /-- A statement with which the query ends. -/
  | query
  /-- A statement, whatever comes after it. -/
  | statement
  /-- A condition, whatever comes after it. -/
  | condition
  deriving DecidableEq, Repr

/-- The rule of the grammar that a request runs. -/
def Request.rule : Request → Rule σ (Statement ⊕ Condition)
  | .query => do
    let found ← Grammar.query
    pure (.inl found)
  | .statement => do
    let found ← Grammar.statement
    pure (.inl found)
  | .condition => do
    let found ← Grammar.condition
    pure (.inr found)

theorem Request.matchesAt_rule {τ : Type} [TokenSource τ] (request : Request) (s : σ) :
    (request.rule : Rule σ _).MatchesAt (request.rule : Rule τ _) s := by
  cases request with
  | query =>
    refine (Grammar.matchesAt_query s).bind ?_
    intro found t _
    exact Rule.matchesAt_pure _ t
  | statement =>
    refine (Grammar.matchesAt_statement s).bind ?_
    intro found t _
    exact Rule.matchesAt_pure _ t
  | condition =>
    refine (Grammar.matchesAt_binary 0 s).bind ?_
    intro found t _
    exact Rule.matchesAt_pure _ t

/-! ## The tokens that a rule consumes -/

/-- A source that notes the tokens that it moves past. -/
structure Trail (σ : Type) where
  source : σ
  passed : List Token

instance : TokenSource (Trail σ) where
  current trail := current trail.source
  advance trail := ⟨advance trail.source, trail.passed ++ [current trail.source]⟩
  remaining trail := remaining trail.source
  remaining_advance_le trail := remaining_advance_le trail.source
  remaining_advance_lt trail := remaining_advance_lt trail.source

namespace Trail

theorem iterate_advance (s : σ) (passed : List Token) (n : Nat) :
    advance^[n] (Trail.mk s passed) =
      ⟨advance^[n] s, passed ++ (List.range n).map (tokenAt s)⟩ := by
  induction n with
  | zero => simp
  | succ n ih =>
    rw [Function.iterate_succ_apply', Function.iterate_succ_apply', ih, List.range_succ,
      List.map_append, ← List.append_assoc]
    rfl

/-- Noting tokens does not change them. -/
theorem tokenAt_eq (s : σ) (passed : List Token) (n : Nat) :
    tokenAt (Trail.mk s passed) n = tokenAt s n := by
  unfold tokenAt
  rw [iterate_advance]
  rfl

end Trail

namespace Reader

/-- The answer to one request, and the reader after it. -/
def ask (reader : Reader) : Request → Except ParseError (Statement ⊕ Condition) × Reader
  | .query => (reader.readQuery.1.map .inl, reader.readQuery.2)
  | .statement => (reader.readStatement.1.map .inl, reader.readStatement.2)
  | .condition => (reader.readCondition.1.map .inr, reader.readCondition.2)

/-- What the grammar makes of a request. -/
def verdict (reader : Reader) (request : Request) : Except ParseError (Statement ⊕ Condition) :=
  (request.rule.run reader).1.mapError ParseError.ofFault

/-- The reader where the grammar stops. -/
def stop (reader : Reader) (request : Request) : Reader :=
  (request.rule.run reader).2

/-- The tokens that a request moves past. -/
def consumes (reader : Reader) (request : Request) : List Token :=
  (request.rule.run (Trail.mk reader [])).2.passed

/-- The current token and those that the scanner has still to give. -/
def ahead (reader : Reader) : Stream' Token :=
  Stream'.cons reader.current reader.scanner.coming

variable {reader other : Reader} {request : Request}

theorem ahead_advance (reader : Reader) : (advance reader).ahead = reader.scanner.coming :=
  (Scanner.coming_eq reader.scanner).symm

theorem get_ahead (reader : Reader) (n : Nat) : reader.ahead.get n = tokenAt reader n := by
  induction n generalizing reader with
  | zero => rfl
  | succ n ih =>
    have hnext : tokenAt reader (n + 1) = tokenAt (advance reader) n := rfl
    rw [hnext, ← ih, ahead_advance]
    rfl

theorem map_tokenAt_append_ahead (reader : Reader) (n : Nat) :
    (List.range n).map (tokenAt reader) ++ₛ (advance^[n] reader).ahead = reader.ahead := by
  induction n with
  | zero => rfl
  | succ n ih =>
    have hlast : [tokenAt reader n] ++ₛ (advance (advance^[n] reader)).ahead =
        (advance^[n] reader).ahead := by
      rw [ahead_advance]
      rfl
    rw [List.range_succ, List.map_append, Stream'.append_append_stream,
      Function.iterate_succ_apply', List.map_singleton, hlast, ih]

/-- The grammar stops some tokens further on, and a fault shows the token there.
From all readers with the same tokens ahead it consumes the same. -/
theorem exists_stop (reader : Reader) (request : Request) :
    ∃ n, reader.stop request = advance^[n] reader ∧
      (∀ fault, (request.rule.run reader).1 = .error fault →
        fault.found = (reader.stop request).current) ∧
      ∀ other : Reader, other.ahead = reader.ahead →
        other.consumes request = (List.range n).map (tokenAt reader) := by
  have hmatches : Rule.MatchesAt request.rule (request.rule : Rule (Trail Reader) _) reader :=
    request.matchesAt_rule reader
  obtain ⟨n, hn, hfound, htrail⟩ := hmatches
  refine ⟨n, hn, ?_, ?_⟩
  · intro fault hfault
    unfold stop
    rw [hn]
    exact hfound fault hfault
  · intro other hahead
    have hsame : ∀ i, tokenAt reader i = tokenAt other i := by
      intro i
      rw [← get_ahead, ← get_ahead, hahead]
    unfold consumes
    rw [htrail (Trail.mk other []) fun i _ => by rw [Trail.tokenAt_eq, hsame],
      Trail.iterate_advance]
    simp [hsame]

/-- The grammar decides by the tokens ahead. -/
theorem verdict_of_ahead (h : other.ahead = reader.ahead) :
    other.verdict request = reader.verdict request := by
  have hmatches : Rule.MatchesAt request.rule (request.rule : Rule Reader _) reader :=
    request.matchesAt_rule reader
  obtain ⟨n, -, hother⟩ := hmatches.agreesAt
  unfold verdict
  rw [hother other]
  intro i _
  rw [← get_ahead, ← get_ahead, h]

theorem run_bind_pure {α β : Type} (p : Rule Reader α) (f : α → β) (reader : Reader) :
    (p >>= fun a => pure (f a)).run reader = ((p.run reader).1.map f, (p.run reader).2) := by
  rcases hrun : p.run reader with ⟨fault | a, t⟩
  · rw [Rule.run_bind_error hrun]
    rfl
  · rw [Rule.run_bind_ok hrun]
    rfl

theorem map_readRule {α β : Type} (p : Rule Reader α) (f : α → β) (reader : Reader) :
    ((reader.readRule p).1.map f, (reader.readRule p).2) =
      reader.readRule (p >>= fun a => pure (f a)) := by
  unfold readRule
  rw [run_bind_pure]
  rcases hrun : p.run reader with ⟨fault | a, t⟩
  · rfl
  · rfl

/-- A reader that is asked for a query first reports what the scanner has
recorded. -/
theorem readQuery_eq (reader : Reader) :
    reader.readQuery =
      if (reader.readRule Grammar.query).2.scanner.diagnostics.toList = [] then
        reader.readRule Grammar.query
      else
        (.error (.lexical (reader.readRule Grammar.query).2.scanner.takeDiagnostics.1),
          { (reader.readRule Grammar.query).2 with
            scanner := (reader.readRule Grammar.query).2.scanner.takeDiagnostics.2 }) := by
  unfold readQuery Scanner.takeDiagnostics
  cases hrecorded : (reader.readRule Grammar.query).2.scanner.diagnostics.toList with
  | nil => simp [hrecorded]
  | cons problem problems => simp [hrecorded]

/-- A request answers with the verdict of the grammar. Only a request for a query
takes what the scanner has recorded, and answers with that if there is any. -/
theorem ask_eq (reader : Reader) (request : Request) :
    reader.ask request =
      if request = .query ∧ (reader.stop request).scanner.diagnostics.toList ≠ [] then
        (.error (.lexical (reader.stop request).scanner.takeDiagnostics.1),
          { reader.stop request with scanner := (reader.stop request).scanner.takeDiagnostics.2 })
      else (reader.verdict request, reader.stop request) := by
  cases request with
  | query =>
    have hverdict : ((reader.readRule Grammar.query).1.map Sum.inl,
        (reader.readRule Grammar.query).2) = (reader.verdict .query, reader.stop .query) :=
      map_readRule Grammar.query Sum.inl reader
    have hstop : (reader.readRule Grammar.query).2 = reader.stop .query :=
      congrArg Prod.snd hverdict
    unfold ask
    rw [readQuery_eq, ← hverdict, hstop]
    by_cases hrecorded : (reader.stop .query).scanner.diagnostics.toList = []
    · rw [if_pos hrecorded, if_neg (by simp [hrecorded]), hstop]
    · rw [if_neg hrecorded, if_pos ⟨rfl, hrecorded⟩]
      rfl
  | statement =>
    rw [if_neg (by simp)]
    exact map_readRule Grammar.statement Sum.inl reader
  | condition =>
    rw [if_neg (by simp)]
    exact map_readRule Grammar.condition Sum.inr reader

theorem current_ask (reader : Reader) (request : Request) :
    (reader.ask request).2.current = (reader.stop request).current := by
  rw [ask_eq]
  split
  · rfl
  · rfl

theorem ahead_ask (reader : Reader) (request : Request) :
    (reader.ask request).2.ahead = (reader.stop request).ahead := by
  rw [ask_eq]
  split
  · unfold ahead
    rw [(Scanner.beside_takeDiagnostics _).coming]
  · rfl

/-- What a request consumes, with what is then ahead, is what was ahead before. -/
theorem consumes_append_ahead (reader : Reader) (request : Request) :
    reader.consumes request ++ₛ (reader.ask request).2.ahead = reader.ahead := by
  obtain ⟨n, hstop, -, hconsumes⟩ := reader.exists_stop request
  rw [ahead_ask, hstop, hconsumes reader rfl, map_tokenAt_append_ahead]

end Reader

/-! ## Faults and the current token -/

/-- The error shows a token and says on which line it stands. -/
def ParseError.ShowsToken (error : ParseError) (token : Token) : Prop :=
  (∃ expected, error = .unexpected expected token.kind.describe token.line) ∨
    error = .emptyColumns token.kind.describe token.line

theorem ParseError.showsToken_ofFault (fault : Fault) :
    (ofFault fault).ShowsToken fault.found := by
  cases fault with
  | unexpected expected found => exact Or.inl ⟨expected.describe, rfl⟩
  | noColumns found => exact Or.inr rfl

/-- After an error of the grammar the reader stands at the token that the error
shows. -/
theorem Reader.showsToken_of_ask {reader : Reader} {request : Request} {error : ParseError}
    (h : (reader.ask request).1 = .error error) (hgrammar : error.isSyntax = true) :
    error.ShowsToken (reader.ask request).2.current := by
  obtain ⟨n, -, hfound, -⟩ := reader.exists_stop request
  rw [current_ask]
  rw [ask_eq] at h
  split at h
  · cases h
    cases hgrammar
  · have hverdict : reader.verdict request = .error error := h
    unfold verdict at hverdict
    cases hrun : (request.rule.run reader).1 with
    | ok found =>
      rw [hrun] at hverdict
      cases hverdict
    | error fault =>
      rw [hrun] at hverdict
      cases hverdict
      rw [← hfound fault hrun]
      exact ParseError.showsToken_ofFault fault

/-! ## Requests one after another -/

theorem Scanner.Follows.iterate {text : String} {n : Nat} {taken : List Diagnostic}
    {reader : Reader} (h : Follows text n taken reader.scanner) (k : Nat) :
    Follows text (n + k) taken (advance^[k] reader).scanner := by
  induction k with
  | zero => exact h
  | succ k ih =>
    rw [Function.iterate_succ_apply']
    exact ih.nextToken

/-- The problems in an answer. -/
def reported {α : Type} : Except ParseError α → List Diagnostic
  | .error (.lexical problems) => problems
  | _ => []

theorem Reader.reported_verdict (reader : Reader) (request : Request) :
    reported (reader.verdict request) = [] := by
  unfold verdict
  rcases (request.rule.run reader).1 with (fault | fault) | found
  · rfl
  · rfl
  · rfl

/-- What requests to one reader have come to. -/
structure History where
  /-- The reader as they left it. -/
  reader : Reader
  /-- The tokens that they consumed. -/
  consumed : List Token
  /-- The problems that they reported. -/
  taken : List Diagnostic

namespace History

/-- No request has been made to the reader of a text. -/
def start (text : String) : History :=
  { reader := Reader.ofText text, consumed := [], taken := [] }

/-- One more request. -/
def ask (history : History) (request : Request) : History :=
  { reader := (history.reader.ask request).2
    consumed := history.consumed ++ history.reader.consumes request
    taken := history.taken ++ reported (history.reader.ask request).1 }

/-- Requests to the reader of a text, one after another. -/
def ofRequests (text : String) (requests : List Request) : History :=
  requests.foldl ask (start text)

theorem ofRequests_concat (text : String) (requests : List Request) (request : Request) :
    ofRequests text (requests ++ [request]) = (ofRequests text requests).ask request := by
  unfold ofRequests
  rw [List.foldl_concat]

/-- Nothing of the text has been lost or met twice. -/
structure Kept (text : String) (history : History) : Prop where
  tokens : history.consumed ++ₛ history.reader.ahead = (Scanner.ofText text).coming
  follows : Scanner.Follows text (history.consumed.length + 1) history.taken history.reader.scanner

variable {text : String} {history : History}

theorem kept_start (text : String) : Kept text (start text) := by
  constructor
  · exact (Scanner.coming_eq (Scanner.ofText text)).symm
  · exact (Scanner.follows_ofText text).nextToken

/-- Where the grammar stops, the scanner has gone on by the tokens consumed. -/
theorem Kept.stop (h : Kept text history) (request : Request) :
    Scanner.Follows text ((history.ask request).consumed.length + 1) history.taken
      (history.reader.stop request).scanner := by
  obtain ⟨n, hstop, -, hconsumes⟩ := history.reader.exists_stop request
  have hlength : (history.ask request).consumed.length + 1 = history.consumed.length + 1 + n := by
    simp only [History.ask, hconsumes history.reader rfl, List.length_append, List.length_map,
      List.length_range]
    omega
  rw [hstop, hlength]
  exact h.follows.iterate n

/-- One request: what it consumes and reports is what comes next in the text. -/
theorem Kept.ask (h : Kept text history) (request : Request) :
    Kept text (history.ask request) := by
  have hstop := h.stop request
  constructor
  · unfold History.ask
    rw [Stream'.append_append_stream, Reader.consumes_append_ahead, h.tokens]
  · unfold History.ask at hstop ⊢
    rw [Reader.ask_eq]
    split
    · exact hstop.takeDiagnostics
    · rw [Reader.reported_verdict, List.append_nil]
      exact hstop

theorem kept_foldl (h : Kept text history) (requests : List Request) :
    Kept text (requests.foldl History.ask history) := by
  induction requests generalizing history with
  | nil => exact h
  | cons request requests ih => exact ih (h.ask request)

theorem kept_ofRequests (text : String) (requests : List Request) :
    Kept text (ofRequests text requests) :=
  kept_foldl (kept_start text) requests

end History

/-! ## The law -/

/-- The problems that a new scanner of a text records up to token number `n`. -/
def recordedUpTo (text : String) (n : Nat) : List Diagnostic :=
  ((Scanner.ofText text).after (n + 1)).diagnostics.toList

/-- Requests to one reader of a text, in any order and whatever they answer, lose
no token and no problem and meet none twice. The tokens consumed, the current one
and those that the scanner has still to give are those of a new scanner of the
text, which gives its last one for ever. The problems reported and those still
recorded are those that a new scanner records up to the current token. What the
grammar makes of a request depends on the tokens ahead alone, and that is the
answer, unless a query is asked for and there are problems to report. After an
error of the grammar the current token is the one that the error shows. -/
theorem a_reader_neither_loses_nor_repeats (text : String) (requests : List Request) :
    (History.ofRequests text requests).consumed ++ₛ
        (History.ofRequests text requests).reader.ahead = (Scanner.ofText text).coming ∧
    (∃ last, (tokenize text).1.getLast? = some last ∧ last.kind = .endOfInput ∧
      (Scanner.ofText text).coming = (tokenize text).1 ++ₛ Stream'.const last) ∧
    (History.ofRequests text requests).taken ++
        (History.ofRequests text requests).reader.scanner.diagnostics.toList =
      recordedUpTo text (History.ofRequests text requests).consumed.length ∧
    (∀ (reader other : Reader) (request : Request), other.ahead = reader.ahead →
      other.verdict request = reader.verdict request ∧
      other.consumes request = reader.consumes request) ∧
    ∀ request,
      (∃ problems,
        (History.ofRequests text requests).taken ++ problems =
          recordedUpTo text (History.ofRequests text (requests ++ [request])).consumed.length ∧
        ((History.ofRequests text requests).reader.ask request).1 =
          if request = .query ∧ problems ≠ [] then .error (.lexical problems)
          else (History.ofRequests text requests).reader.verdict request) ∧
      ∀ error, ((History.ofRequests text requests).reader.ask request).1 = .error error →
        error.isSyntax = true →
        error.ShowsToken (History.ofRequests text (requests ++ [request])).reader.current := by
  have hkept := History.kept_ofRequests text requests
  refine ⟨hkept.tokens, Scanner.coming_ofText text, hkept.follows.recorded, ?_, ?_⟩
  · intro reader other request hahead
    obtain ⟨n, -, -, hconsumes⟩ := reader.exists_stop request
    exact ⟨Reader.verdict_of_ahead hahead, by rw [hconsumes other hahead, hconsumes reader rfl]⟩
  · intro request
    rw [History.ofRequests_concat]
    refine ⟨⟨_, (hkept.stop request).recorded, ?_⟩, ?_⟩
    · rw [Reader.ask_eq, apply_ite Prod.fst]
      rfl
    · intro error herror hgrammar
      exact Reader.showsToken_of_ask herror hgrammar

end SelectQuery
