-- Calls on one scanner, one after another. The scanner remembers an open quote
-- so as not to search from later ones. A scanner that searches from every quote
-- gives the same answers to all calls and stops at the same places: where one
-- quote is not closed, no later one is.
import SelectQuery.Proofs.Scan.Tokenization

namespace SelectQuery

/-! ## Calls and answers -/

/-- What can be asked of a scanner. -/
inductive Call where
  /-- The next token, also past the end of the query. -/
  | nextToken
  /-- The next token of the stream. -/
  | next
  /-- All tokens that the stream still has. -/
  | rest
  /-- The problems recorded so far. -/
  | diagnostics
  /-- The problems recorded so far, which are then forgotten. -/
  | takeDiagnostics
  deriving DecidableEq, Repr

/-- What a call gives. -/
inductive Answer where
  | token (token : Token)
  | streamed (token? : Option Token)
  | tokens (tokens : List Token)
  | problems (diagnostics : List Diagnostic)
  deriving DecidableEq, Repr

/-- Makes calls one after another, each where the one before it ended. -/
def session {σ : Type} (ask : σ → Call → Answer × σ) (s : σ) : List Call → List Answer × σ
  | [] => ([], s)
  | call :: calls =>
    let later := session ask (ask s call).2 calls
    ((ask s call).1 :: later.1, later.2)

/-- What answers each call alike, and stays alike, answers all calls alike. -/
theorem session_of_step {σ τ : Type} {ask : σ → Call → Answer × σ} {ask' : τ → Call → Answer × τ}
    {R : σ → τ → Prop}
    (hstep : ∀ s t call, R s t →
      (ask s call).1 = (ask' t call).1 ∧ R (ask s call).2 (ask' t call).2)
    {s : σ} {t : τ} (h : R s t) (calls : List Call) :
    (session ask s calls).1 = (session ask' t calls).1 ∧
      R (session ask s calls).2 (session ask' t calls).2 := by
  induction calls generalizing s t with
  | nil => exact ⟨rfl, h⟩
  | cons call calls ih =>
    obtain ⟨hanswer, hnext⟩ := hstep s t call h
    obtain ⟨hanswers, hlast⟩ := ih hnext
    exact ⟨by simp only [session, hanswer, hanswers], hlast⟩

namespace Scanner

/-- The answer to one call, and the scanner after it. -/
def ask (scanner : Scanner) : Call → Answer × Scanner
  | .nextToken => (.token scanner.nextToken.1, scanner.nextToken.2)
  | .next => (.streamed scanner.next?.1, scanner.next?.2)
  | .rest => (.tokens scanner.drain.1, scanner.drain.2)
  | .diagnostics => (.problems scanner.diagnostics.toList, scanner)
  | .takeDiagnostics => (.problems scanner.takeDiagnostics.1, scanner.takeDiagnostics.2)

/-- The places where the scanner stands on its way to the next token: before
every segment that it passes, and at last behind the token. -/
def stops (scanner : Scanner) : List Cursor :=
  match _ : scanner.segment? with
  | none => [scanner.cursor]
  | some segment =>
    match segment.kind? with
    | some _ => [scanner.cursor, (scanner.pass segment).cursor]
    | none => scanner.cursor :: (scanner.pass segment).stops
termination_by scanner.cursor.rest.length
decreasing_by exact length_rest_pass_lt (by assumption)

end Scanner

/-! ## A scanner without memory -/

/-- A scanner that searches from every quote it comes to. -/
structure Rescanner where
  /-- The place in the text. -/
  cursor : Cursor
  /-- The problems met and not yet taken, in the order of the text. -/
  diagnostics : Array Diagnostic
  /-- The stream of tokens has given its last one. -/
  finished : Bool
  deriving DecidableEq, Repr

namespace Rescanner

/-- A scanner before the first character of a text. -/
def ofText (text : String) : Rescanner :=
  { cursor := Cursor.start text, diagnostics := #[], finished := false }

/-- The segment at the cursor. -/
def segment? (scanner : Rescanner) : Option Segment :=
  Segment.first? scanner.cursor.rest

/-- The scanner after the segment at its cursor. -/
def pass (scanner : Rescanner) (segment : Segment) : Rescanner :=
  { scanner with
    cursor := scanner.cursor.past segment.text
    diagnostics := scanner.diagnostics ++ segment.diagnostics scanner.cursor.line }

theorem length_rest_pass_lt {scanner : Rescanner} {segment : Segment}
    (h : scanner.segment? = some segment) :
    (scanner.pass segment).cursor.rest.length < scanner.cursor.rest.length := by
  obtain ⟨hne, rest, hrest⟩ := Segment.text_first? h
  have hpos := List.length_pos_iff.mpr hne
  simp only [pass, Cursor.past, hrest, List.drop_left, List.length_append]
  omega

/-- The next token: segments that give none are passed over. -/
def nextToken (scanner : Rescanner) : Token × Rescanner :=
  match _ : scanner.segment? with
  | none => (⟨.endOfInput, scanner.cursor.line⟩, scanner)
  | some segment =>
    match segment.kind? with
    | some kind => (⟨kind, scanner.cursor.line⟩, scanner.pass segment)
    | none => (scanner.pass segment).nextToken
termination_by scanner.cursor.rest.length
decreasing_by exact length_rest_pass_lt (by assumption)

theorem nextToken_eq (scanner : Rescanner) :
    scanner.nextToken =
      match scanner.segment? with
      | none => (⟨.endOfInput, scanner.cursor.line⟩, scanner)
      | some segment =>
        match segment.kind? with
        | some kind => (⟨kind, scanner.cursor.line⟩, scanner.pass segment)
        | none => (scanner.pass segment).nextToken := by
  rw [nextToken]
  split <;> simp_all

/-- Every token but the end of the query makes the rest of the text shorter. -/
theorem length_rest_nextToken_lt {scanner : Rescanner} (h : scanner.nextToken.1.isEnd = false) :
    scanner.nextToken.2.cursor.rest.length < scanner.cursor.rest.length := by
  fun_induction nextToken scanner with
  | case1 => simp [Token.isEnd, Token.Kind.isEnd] at h
  | case2 scanner segment hs => exact length_rest_pass_lt hs
  | case3 scanner segment hs _ ih => exact Nat.lt_trans (ih h) (length_rest_pass_lt hs)

/-- The next token of the stream, which stops after the end of the query. -/
def next? (scanner : Rescanner) : Option Token × Rescanner :=
  if scanner.finished then (none, scanner)
  else
    let (token, scanner) := scanner.nextToken
    (some token, { scanner with finished := token.isEnd })

/-- All tokens that the stream still has, and the scanner at its end. -/
def drain (scanner : Rescanner) : List Token × Rescanner :=
  if scanner.finished then ([], scanner)
  else
    let step := scanner.nextToken
    if _ : step.1.isEnd then ([step.1], { step.2 with finished := true })
    else
      let (tokens, last) := step.2.drain
      (step.1 :: tokens, last)
termination_by scanner.cursor.rest.length
decreasing_by exact length_rest_nextToken_lt (by simp_all [step])

/-- The answer to one call, and the scanner after it. -/
def ask (scanner : Rescanner) : Call → Answer × Rescanner
  | .nextToken => (.token scanner.nextToken.1, scanner.nextToken.2)
  | .next => (.streamed scanner.next?.1, scanner.next?.2)
  | .rest => (.tokens scanner.drain.1, scanner.drain.2)
  | .diagnostics => (.problems scanner.diagnostics.toList, scanner)
  | .takeDiagnostics => (.problems scanner.diagnostics.toList, { scanner with diagnostics := #[] })

/-- The places where the scanner stands on its way to the next token: before
every segment that it passes, and at last behind the token. -/
def stops (scanner : Rescanner) : List Cursor :=
  match _ : scanner.segment? with
  | none => [scanner.cursor]
  | some segment =>
    match segment.kind? with
    | some _ => [scanner.cursor, (scanner.pass segment).cursor]
    | none => scanner.cursor :: (scanner.pass segment).stops
termination_by scanner.cursor.rest.length
decreasing_by exact length_rest_pass_lt (by assumption)

theorem stops_eq (scanner : Rescanner) :
    scanner.stops =
      match scanner.segment? with
      | none => [scanner.cursor]
      | some segment =>
        match segment.kind? with
        | some _ => [scanner.cursor, (scanner.pass segment).cursor]
        | none => scanner.cursor :: (scanner.pass segment).stops := by
  rw [stops]
  split <;> simp_all

end Rescanner

/-! ## The two side by side -/

/-- The scanner without what it remembers of quotes. -/
def Scanner.forget (scanner : Scanner) : Rescanner :=
  { cursor := scanner.cursor
    diagnostics := scanner.diagnostics
    finished := scanner.finished }

namespace Scanner

/-- A scanner in good order somewhere in a text. -/
def SoundIn (text : List Char) (scanner : Scanner) : Prop :=
  ∃ before, scanner.Sound text before

variable {scanner : Scanner} {text : List Char}

/-- In good order, what is remembered of quotes does not decide the segment. -/
theorem SoundIn.segment?_forget (h : SoundIn text scanner) :
    scanner.forget.segment? = scanner.segment? := by
  obtain ⟨before, hsound⟩ := h
  exact hsound.segment?_eq.symm

theorem SoundIn.pass (h : SoundIn text scanner) {segment : Segment}
    (hsegment : scanner.segment? = some segment) : SoundIn text (scanner.pass segment) := by
  obtain ⟨before, hsound⟩ := h
  rw [hsound.segment?_eq] at hsegment
  obtain ⟨rest, hrest, hfits⟩ := Segment.fitsBefore_of_first? hsegment
  exact ⟨before ++ segment.text, hsound.pass hrest hfits⟩

/-- The order of a scanner depends on its place and its memory alone. -/
theorem SoundIn.of_eq {other : Scanner} (h : SoundIn text scanner)
    (hcursor : other.cursor = scanner.cursor)
    (hunclosed : other.unclosedFrom = scanner.unclosedFrom) : SoundIn text other := by
  obtain ⟨before, hsound⟩ := h
  refine ⟨before, hcursor ▸ hsound.stands, ?_⟩
  rw [hcursor, hunclosed]
  exact hsound.unclosed

/-- One token: the two give the same one and stay alike. -/
theorem SoundIn.nextToken (h : SoundIn text scanner) :
    scanner.forget.nextToken = (scanner.nextToken.1, scanner.nextToken.2.forget) ∧
      SoundIn text scanner.nextToken.2 := by
  -- The induction goes over the segments that give no token.
  fun_induction Scanner.nextToken scanner with
  | case1 scanner hnone =>
    rw [Rescanner.nextToken_eq, h.segment?_forget, hnone]
    exact ⟨rfl, h⟩
  | case2 scanner segment hsome kind hkind =>
    rw [Rescanner.nextToken_eq, h.segment?_forget, hsome]
    simp only [hkind]
    exact ⟨rfl, h.pass hsome⟩
  | case3 scanner segment hsome hkind ih =>
    rw [Rescanner.nextToken_eq, h.segment?_forget, hsome]
    simp only [hkind]
    exact ih (h.pass hsome)

/-- On the way to a token the two stop at the same places. -/
theorem SoundIn.stops (h : SoundIn text scanner) : scanner.forget.stops = scanner.stops := by
  fun_induction Scanner.stops scanner with
  | case1 scanner hnone =>
    rw [Rescanner.stops_eq, h.segment?_forget, hnone]
    rfl
  | case2 scanner segment hsome kind hkind =>
    rw [Rescanner.stops_eq, h.segment?_forget, hsome]
    simp only [hkind]
    rfl
  | case3 scanner segment hsome hkind ih =>
    rw [Rescanner.stops_eq, h.segment?_forget, hsome]
    simp only [hkind]
    exact congrArg _ (ih (h.pass hsome))

theorem SoundIn.next? (h : SoundIn text scanner) :
    scanner.forget.next? = (scanner.next?.1, scanner.next?.2.forget) ∧
      SoundIn text scanner.next?.2 := by
  obtain ⟨htoken, hsound⟩ := h.nextToken
  unfold Rescanner.next? Scanner.next?
  by_cases hfinished : scanner.finished = true
  · have hforget : scanner.forget.finished = true := hfinished
    simp only [hfinished, hforget, if_true]
    exact ⟨trivial, h⟩
  · have hforget : ¬ scanner.forget.finished = true := hfinished
    simp only [hfinished, hforget, htoken]
    exact ⟨rfl, hsound.of_eq rfl rfl⟩

theorem SoundIn.drain (h : SoundIn text scanner) :
    scanner.forget.drain = (scanner.drain.1, scanner.drain.2.forget) ∧
      SoundIn text scanner.drain.2 := by
  fun_induction Scanner.drain scanner with
  | case1 scanner hfinished =>
    have hforget : scanner.forget.finished = true := hfinished
    rw [Rescanner.drain, if_pos hforget]
    exact ⟨rfl, h⟩
  | case2 scanner hfinished step hend =>
    obtain ⟨htoken, hsound⟩ := h.nextToken
    have hforget : ¬ scanner.forget.finished = true := hfinished
    have hlast : scanner.nextToken.1.isEnd = true := hend
    rw [Rescanner.drain, if_neg hforget]
    simp only [htoken]
    rw [dif_pos hlast]
    exact ⟨rfl, hsound.of_eq rfl rfl⟩
  | case3 scanner hfinished step hend tokens last hdrain ih =>
    obtain ⟨htoken, hsound⟩ := h.nextToken
    have hforget : ¬ scanner.forget.finished = true := hfinished
    have hlast : ¬ scanner.nextToken.1.isEnd = true := hend
    obtain ⟨hmore, hend⟩ := ih hsound
    rw [hdrain] at hmore hend
    rw [Rescanner.drain, if_neg hforget]
    simp only [htoken]
    rw [dif_neg hlast, hmore]
    exact ⟨rfl, hend⟩

/-- A scanner in good order, and the same one without its memory. -/
def Alike (text : List Char) (scanner : Scanner) (other : Rescanner) : Prop :=
  SoundIn text scanner ∧ scanner.forget = other

/-- One call: the two give the same answer and stay alike. -/
theorem Alike.ask {other : Rescanner} (h : Alike text scanner other) (call : Call) :
    (scanner.ask call).1 = (other.ask call).1 ∧
      Alike text (scanner.ask call).2 (other.ask call).2 := by
  obtain ⟨hsound, rfl⟩ := h
  cases call with
  | nextToken =>
    obtain ⟨hsame, hnext⟩ := hsound.nextToken
    simp only [Rescanner.ask, hsame]
    exact ⟨rfl, hnext, rfl⟩
  | next =>
    obtain ⟨hsame, hnext⟩ := hsound.next?
    simp only [Rescanner.ask, hsame]
    exact ⟨rfl, hnext, rfl⟩
  | rest =>
    obtain ⟨hsame, hnext⟩ := hsound.drain
    simp only [Rescanner.ask, hsame]
    exact ⟨rfl, hnext, rfl⟩
  | diagnostics => exact ⟨rfl, hsound, rfl⟩
  | takeDiagnostics => exact ⟨rfl, hsound.of_eq rfl rfl, rfl⟩

theorem alike_ofText (text : String) : Alike text.toList (ofText text) (Rescanner.ofText text) :=
  ⟨⟨[], sound_ofText text⟩, rfl⟩

end Scanner

/-! ## Closing quotes -/

/-- A quote right before the text is closed in it: pieces of a literal lead up to
a quote that no backslash takes. -/
def Literal.Closes (rest : List Char) : Prop :=
  ∃ pieces after, (∀ p ∈ pieces, p.Fits) ∧ rest = inner pieces ++ '\'' :: after

theorem Literal.closes_iff (rest : List Char) : Closes rest ↔ body? rest ≠ none := by
  rw [← Option.isSome_iff_ne_none, Option.isSome_iff_exists]
  simp only [body?_eq_some_iff, Closes, exists_and_left]

/-! ## The law -/

/-- A scanner that remembers an open quote and one that searches from every quote
give the same answers to all calls on a text. They end at the same place with the
same problems recorded, and stop at the same places on the way to the next token.
For where one quote of the text is not closed, no later one is. -/
theorem an_open_quote_may_be_remembered (text : String) :
    (∀ calls,
      (session Scanner.ask (Scanner.ofText text) calls).1 =
        (session Rescanner.ask (Rescanner.ofText text) calls).1 ∧
      (session Scanner.ask (Scanner.ofText text) calls).2.forget =
        (session Rescanner.ask (Rescanner.ofText text) calls).2 ∧
      (session Scanner.ask (Scanner.ofText text) calls).2.stops =
        (session Rescanner.ask (Rescanner.ofText text) calls).2.stops) ∧
    ∀ before between after, text.toList = before ++ '\'' :: (between ++ '\'' :: after) →
      ¬ Literal.Closes (between ++ '\'' :: after) → ¬ Literal.Closes after := by
  constructor
  · intro calls
    obtain ⟨hanswers, hsound, hforget⟩ := session_of_step (R := Scanner.Alike text.toList)
      (fun _ _ call h => h.ask call) (Scanner.alike_ofText text) calls
    exact ⟨hanswers, hforget, by rw [← hforget, hsound.stops]⟩
  · intro before between after _ hopen
    rw [Literal.closes_iff, not_not] at hopen ⊢
    exact Literal.body?_after_quote hopen

end SelectQuery
