-- The laws of calls on one scanner, in any order. However tokens are asked for,
-- each is given once and in order, and the end of the query from then on again
-- and again. However problems are taken, each is recorded once, when the scanner
-- passes it.
import SelectQuery.Proofs.Query.Stream
import SelectQuery.Proofs.Scan.Session
import Mathlib.Data.Stream.Init

namespace SelectQuery

/-! ## Answers -/

/-- The tokens in an answer. -/
def Answer.given : Answer → List Token
  | .token found => [found]
  | .streamed found? => found?.toList
  | .tokens all => all
  | .problems _ => []

/-- The tokens in an answer of the stream. -/
def Answer.fromStream : Answer → List Token
  | .token _ => []
  | .streamed found? => found?.toList
  | .tokens all => all
  | .problems _ => []

/-- The problems in an answer to a call that takes them. -/
def Call.takes : Call → Answer → List Diagnostic
  | .takeDiagnostics, .problems found => found
  | _, _ => []

theorem Call.takes_of_ne {call : Call} (h : call ≠ .takeDiagnostics) (answer : Answer) :
    call.takes answer = [] := by
  cases call with
  | takeDiagnostics => exact absurd rfl h
  | _ => rfl

/-- The problems that calls have taken, by their answers. -/
def takenIn (calls : List Call) (answers : List Answer) : List Diagnostic :=
  (List.zipWith Call.takes calls answers).flatten

namespace Scanner

/-- The answers to calls on a new scanner of a text. -/
def answers (text : String) (calls : List Call) : List Answer :=
  (session ask (ofText text) calls).1

/-- The scanner of a text after calls. -/
def reached (text : String) (calls : List Call) : Scanner :=
  (session ask (ofText text) calls).2

/-! ## What is still to come -/

/-- The tokens that come if the scanner is asked for the next one for ever. -/
def coming (scanner : Scanner) : Stream' Token :=
  Stream'.corec' nextToken scanner

theorem coming_eq (scanner : Scanner) :
    scanner.coming = Stream'.cons scanner.nextToken.1 scanner.nextToken.2.coming :=
  Stream'.corec'_eq nextToken scanner

theorem get_coming (scanner : Scanner) (n : Nat) :
    scanner.coming.get n = (scanner.after n).nextToken.1 := by
  induction n generalizing scanner with
  | zero =>
    rw [coming_eq]
    rfl
  | succ n ih =>
    rw [coming_eq, Stream'.get_succ_cons, ih, after_succ]

/-- A new scanner gives the tokens of its text, and then the last one for ever. -/
theorem coming_ofText (text : String) :
    ∃ last, (tokenize text).1.getLast? = some last ∧ last.kind = .endOfInput ∧
      (ofText text).coming = (tokenize text).1 ++ₛ Stream'.const last := by
  obtain ⟨last, hlast, hkind, hend⟩ := at_end text
  refine ⟨last, hlast, hkind, ?_⟩
  apply Stream'.ext
  intro n
  rw [get_coming, ← tokenAt_reader]
  by_cases hn : n < (tokenize text).1.length
  · rw [Stream'.get_append_left _ _ _ hn]
    exact tokenAt_ofText (List.getElem?_eq_getElem hn)
  · obtain ⟨m, hm⟩ := Nat.exists_eq_add_of_le (Nat.le_of_not_lt hn)
    have hlength : (kindsOf text).length = (tokenize text).1.length := by simp [kindsOf]
    rw [(hend n (by omega)).1, hm, Stream'.get_append_right, Stream'.get_const]

/-- Token number `n` of a text, or its last one if it has not so many. -/
theorem getElem?_tokenize (text : String) (n : Nat) :
    (tokenize text).1[min n ((tokenize text).1.length - 1)]? =
      some ((ofText text).coming.get n) := by
  obtain ⟨last, hlast, -, hcoming⟩ := coming_ofText text
  rw [hcoming]
  by_cases hn : n < (tokenize text).1.length
  · rw [Nat.min_eq_left (by omega), Stream'.get_append_left _ _ _ hn]
    exact List.getElem?_eq_getElem hn
  · obtain ⟨m, hm⟩ := Nat.exists_eq_add_of_le (Nat.le_of_not_lt hn)
    rw [Nat.min_eq_right (by omega), ← List.getLast?_eq_getElem?, hlast, hm,
      Stream'.get_append_right, Stream'.get_const]

/-- The end of the query does not come before the last token. -/
theorem length_le_of_isEnd {text : String} {n : Nat}
    (h : ((ofText text).coming.get n).isEnd = true) : (tokenize text).1.length ≤ n + 1 := by
  by_contra hlt
  obtain ⟨front, hfront, hnot⟩ := ends_kindsOf text
  obtain ⟨last, -, -, hcoming⟩ := coming_ofText text
  have hn : n < (tokenize text).1.length := by omega
  have hlength : (kindsOf text).length = (tokenize text).1.length := by simp [kindsOf]
  rw [hcoming, Stream'.get_append_left _ _ _ hn, Token.isEnd, Token.Kind.isEnd_iff] at h
  have hkind : (kindsOf text)[n]? = some .endOfInput := by
    simp [kindsOf, List.getElem?_eq_getElem hn, h]
  rw [hfront, List.length_append, List.length_singleton] at hlength
  rw [hfront, List.getElem?_append_left (by omega)] at hkind
  exact hnot (List.mem_of_getElem? hkind)

/-! ## Scanners side by side -/

/-- Two scanners stand at the same place and know the same of its quotes. What
they have recorded may differ. -/
structure Beside (scanner other : Scanner) : Prop where
  cursor_eq : scanner.cursor = other.cursor
  unclosed_eq : scanner.unclosedFrom = other.unclosedFrom

variable {scanner other : Scanner}

theorem Beside.segment? (h : scanner.Beside other) : scanner.segment? = other.segment? := by
  unfold Scanner.segment? knowsUnclosed
  rw [h.cursor_eq, h.unclosed_eq]

theorem Beside.pass (h : scanner.Beside other) (segment : Segment) :
    (scanner.pass segment).Beside (other.pass segment) where
  cursor_eq := by simp only [Scanner.pass, h.cursor_eq]
  unclosed_eq := by simp only [Scanner.pass, h.cursor_eq, h.unclosed_eq]

/-- Side by side, scanners give the same token and record the same on the way. -/
theorem Beside.nextToken (h : scanner.Beside other) :
    scanner.nextToken.1 = other.nextToken.1 ∧ scanner.nextToken.2.Beside other.nextToken.2 ∧
      ∃ found,
        scanner.nextToken.2.diagnostics.toList = scanner.diagnostics.toList ++ found ∧
        other.nextToken.2.diagnostics.toList = other.diagnostics.toList ++ found := by
  -- The induction goes over the segments that give no token.
  fun_induction Scanner.nextToken scanner generalizing other with
  | case1 scanner hnone =>
    have hother := nextToken_of_none (h.segment? ▸ hnone)
    rw [hother]
    exact ⟨by rw [h.cursor_eq], h, [], by simp, by simp⟩
  | case2 scanner segment hsome kind hkind =>
    have hother := nextToken_of_kind (h.segment? ▸ hsome) hkind
    rw [hother]
    exact ⟨by rw [h.cursor_eq], h.pass segment, segment.diagnostics scanner.cursor.line,
      by simp [Scanner.pass], by simp [Scanner.pass, h.cursor_eq]⟩
  | case3 scanner segment hsome hkind ih =>
    have hskip : other.nextToken = (other.pass segment).nextToken :=
      nextToken_of_skip (h.segment? ▸ hsome) hkind
    rw [hskip]
    obtain ⟨htoken, hbeside, found, hfound, hother⟩ := ih (h.pass segment)
    refine ⟨htoken, hbeside, segment.diagnostics scanner.cursor.line ++ found, ?_, ?_⟩
    · rw [hfound]
      simp [Scanner.pass]
    · rw [hother]
      simp [Scanner.pass, h.cursor_eq]

theorem Beside.after (h : scanner.Beside other) (n : Nat) :
    (scanner.after n).Beside (other.after n) := by
  induction n generalizing scanner other with
  | zero => exact h
  | succ n ih =>
    rw [after_succ, after_succ]
    exact ih h.nextToken.2.1

/-- Side by side, scanners have the same tokens to come. -/
theorem Beside.coming (h : scanner.Beside other) : scanner.coming = other.coming := by
  apply Stream'.ext
  intro n
  rw [get_coming, get_coming]
  exact (h.after n).nextToken.1

/-- Ending the stream moves nothing. -/
theorem beside_finish (scanner : Scanner) (finished : Bool) :
    Beside { scanner with finished := finished } scanner :=
  ⟨rfl, rfl⟩

/-- Taking the problems moves nothing. -/
theorem beside_takeDiagnostics (scanner : Scanner) : scanner.takeDiagnostics.2.Beside scanner :=
  ⟨rfl, rfl⟩

theorem Beside.trans {third : Scanner} (h : scanner.Beside other) (h' : other.Beside third) :
    scanner.Beside third :=
  ⟨h.cursor_eq.trans h'.cursor_eq, h.unclosed_eq.trans h'.unclosed_eq⟩

/-! ## No token is lost -/

theorem next?_of_finished (h : scanner.finished = true) : scanner.next? = (none, scanner) := by
  unfold next?
  rw [if_pos h]

theorem next?_of_open (h : scanner.finished = false) :
    scanner.next? = (some scanner.nextToken.1,
      { scanner.nextToken.2 with finished := scanner.nextToken.1.isEnd }) := by
  unfold next?
  rw [if_neg (by simp [h])]

theorem drain_append_coming (scanner : Scanner) :
    scanner.drain.1 ++ₛ scanner.drain.2.coming = scanner.coming := by
  fun_induction Scanner.drain scanner with
  | case1 scanner hfinished => rfl
  | case2 scanner hfinished step hend =>
    rw [(beside_finish step.2 true).coming, coming_eq scanner]
    rfl
  | case3 scanner hfinished step hend tokens last hdrain ih =>
    rw [hdrain] at ih
    rw [coming_eq scanner, Stream'.cons_append_stream, ih]

/-- What an answer gives, with what comes after it, is what came before it. -/
theorem given_append_coming (scanner : Scanner) (call : Call) :
    (scanner.ask call).1.given ++ₛ (scanner.ask call).2.coming = scanner.coming := by
  cases call with
  | nextToken => exact (coming_eq scanner).symm
  | next =>
    unfold ask
    cases hfinished : scanner.finished with
    | true =>
      rw [next?_of_finished hfinished]
      rfl
    | false =>
      rw [next?_of_open hfinished, (beside_finish _ _).coming, coming_eq scanner]
      rfl
  | rest => exact drain_append_coming scanner
  | diagnostics => rfl
  | takeDiagnostics => exact (beside_takeDiagnostics scanner).coming

theorem session_append_coming (scanner : Scanner) (calls : List Call) :
    (session ask scanner calls).1.flatMap Answer.given ++ₛ (session ask scanner calls).2.coming =
      scanner.coming := by
  induction calls generalizing scanner with
  | nil => rfl
  | cons call calls ih =>
    unfold session
    rw [List.flatMap_cons, Stream'.append_append_stream, ih, given_append_coming]

/-- Token number `i` of a session is the one that comes there. -/
theorem get_coming_of_given {text : String} {calls : List Call} {i : Nat} {token : Token}
    (h : ((answers text calls).flatMap Answer.given)[i]? = some token) :
    (ofText text).coming.get i = token := by
  obtain ⟨hi, htoken⟩ := List.getElem?_eq_some_iff.mp h
  have hall : (answers text calls).flatMap Answer.given ++ₛ (reached text calls).coming =
      (ofText text).coming := session_append_coming (ofText text) calls
  rw [← hall, Stream'.get_append_left _ _ _ hi]
  exact htoken

/-! ## No problem is lost -/

/-- The scanner stands where a new scanner of the text stands after `n` tokens,
and what has been taken from it and what it has still recorded are together what
that one has recorded. -/
structure Follows (text : String) (n : Nat) (taken : List Diagnostic) (scanner : Scanner) :
    Prop where
  beside : scanner.Beside ((ofText text).after n)
  recorded : taken ++ scanner.diagnostics.toList = ((ofText text).after n).diagnostics.toList

variable {text : String} {n : Nat} {taken : List Diagnostic}

theorem follows_ofText (text : String) : Follows text 0 [] (ofText text) :=
  ⟨⟨rfl, rfl⟩, rfl⟩

theorem Follows.nextToken (h : Follows text n taken scanner) :
    Follows text (n + 1) taken scanner.nextToken.2 := by
  obtain ⟨-, hbeside, found, hfound, hother⟩ := h.beside.nextToken
  have hnext : (ofText text).after (n + 1) = ((ofText text).after n).nextToken.2 := by
    rw [after_add]
    rfl
  refine ⟨by rwa [hnext], ?_⟩
  rw [hnext, hfound, hother, ← h.recorded, List.append_assoc]

theorem Follows.finish (h : Follows text n taken scanner) (finished : Bool) :
    Follows text n taken { scanner with finished := finished } :=
  ⟨(beside_finish scanner finished).trans h.beside, h.recorded⟩

theorem Follows.takeDiagnostics (h : Follows text n taken scanner) :
    Follows text n (taken ++ scanner.takeDiagnostics.1) scanner.takeDiagnostics.2 := by
  refine ⟨(beside_takeDiagnostics scanner).trans h.beside, ?_⟩
  rw [← h.recorded]
  simp [Scanner.takeDiagnostics]

theorem Follows.drain (h : Follows text n taken scanner) :
    Follows text (n + scanner.drain.1.length) taken scanner.drain.2 := by
  fun_induction Scanner.drain scanner generalizing n with
  | case1 scanner hfinished => exact h
  | case2 scanner hfinished step => exact h.nextToken.finish true
  | case3 scanner hfinished step hend tokens last hdrain =>
    rename_i ih
    have hlast := ih h.nextToken
    rw [hdrain] at hlast
    rw [List.length_cons, Nat.add_comm tokens.length, ← Nat.add_assoc]
    exact hlast

/-- One call: the scanner goes on by the tokens that it gives. -/
theorem Follows.ask (h : Follows text n taken scanner) (call : Call) :
    Follows text (n + (scanner.ask call).1.given.length)
      (taken ++ call.takes (scanner.ask call).1) (scanner.ask call).2 := by
  cases call with
  | nextToken =>
    rw [Call.takes_of_ne (by simp), List.append_nil]
    exact h.nextToken
  | next =>
    rw [Call.takes_of_ne (by simp), List.append_nil]
    unfold Scanner.ask
    cases hfinished : scanner.finished with
    | true =>
      rw [next?_of_finished hfinished]
      exact h
    | false =>
      rw [next?_of_open hfinished]
      exact h.nextToken.finish _
  | rest =>
    rw [Call.takes_of_ne (by simp), List.append_nil]
    exact h.drain
  | diagnostics =>
    rw [Call.takes_of_ne (by simp), List.append_nil]
    exact h
  | takeDiagnostics => exact h.takeDiagnostics

theorem Follows.session (h : Follows text n taken scanner) (calls : List Call) :
    Follows text (n + ((session Scanner.ask scanner calls).1.flatMap Answer.given).length)
      (taken ++ takenIn calls (session Scanner.ask scanner calls).1)
      (session Scanner.ask scanner calls).2 := by
  induction calls generalizing scanner n taken with
  | nil => simpa [SelectQuery.session, takenIn] using h
  | cons call calls ih =>
    have hlater := ih (h.ask call)
    rw [Nat.add_assoc, List.append_assoc] at hlater
    unfold SelectQuery.session takenIn
    rw [List.flatMap_cons, List.length_append, List.zipWith_cons_cons, List.flatten_cons]
    exact hlater

/-! ## Where the stream ends -/

theorem finished_ask (scanner : Scanner) (call : Call) :
    (scanner.ask call).2.finished =
      (scanner.finished || (scanner.ask call).1.fromStream.any Token.isEnd) := by
  cases call with
  | nextToken =>
    unfold ask
    rw [finished_nextToken]
    simp [Answer.fromStream]
  | next =>
    unfold ask
    cases hfinished : scanner.finished with
    | true => simp [next?_of_finished hfinished, hfinished]
    | false => simp [next?_of_open hfinished, Answer.fromStream]
  | rest =>
    unfold ask
    simp only [Answer.fromStream]
    fun_induction Scanner.drain scanner with
    | case1 scanner hfinished => simp [hfinished]
    | case2 scanner hfinished step hend => simp [hend]
    | case3 scanner hfinished step hend tokens last hdrain ih =>
      rw [hdrain, finished_nextToken] at ih
      rw [ih, List.any_cons]
      simp [hend]
  | diagnostics => simp [ask, Answer.fromStream]
  | takeDiagnostics => simp [ask, takeDiagnostics, Answer.fromStream]

theorem finished_session (scanner : Scanner) (calls : List Call) :
    (session ask scanner calls).2.finished =
      (scanner.finished ||
        ((session ask scanner calls).1.flatMap Answer.fromStream).any Token.isEnd) := by
  induction calls generalizing scanner with
  | nil => simp [session]
  | cons call calls ih =>
    unfold session
    rw [ih, finished_ask, List.flatMap_cons, List.any_append, Bool.or_assoc]

theorem ask_next_eq_none_iff (scanner : Scanner) :
    (scanner.ask .next).1 = .streamed none ↔ scanner.finished = true := by
  unfold ask
  cases h : scanner.finished with
  | true => simp [next?_of_finished h]
  | false => simp [next?_of_open h]

/-- To drain the stream is to ask for its next token until none comes. -/
theorem session_next_of_drain (scanner : Scanner) :
    session ask scanner (List.replicate (scanner.drain.1.length + 1) .next) =
      (scanner.drain.1.map (fun token => .streamed (some token)) ++ [.streamed none],
        scanner.drain.2) := by
  fun_induction Scanner.drain scanner with
  | case1 scanner hfinished =>
    simp [session, ask, next?_of_finished hfinished]
  | case2 scanner hfinished step hend =>
    have hopen : scanner.finished = false := by simpa using hfinished
    have hlast : scanner.nextToken.1.isEnd = true := hend
    have hnone : ∀ stopped : Scanner, stopped.finished = true →
        session ask stopped [.next] = ([.streamed none], stopped) := by
      intro stopped hstopped
      simp [session, ask, next?_of_finished hstopped]
    rw [List.length_singleton, List.replicate_succ]
    unfold session
    simp only [ask, next?_of_open hopen, hlast]
    rw [List.replicate_one, hnone _ rfl]
    rfl
  | case3 scanner hfinished step hend tokens last hdrain ih =>
    have hopen : scanner.finished = false := by simpa using hfinished
    have hgoes : scanner.nextToken.1.isEnd = false := by simpa using hend
    have hsame : { scanner.nextToken.2 with finished := false } = scanner.nextToken.2 := by
      rw [← hopen, ← finished_nextToken]
    rw [hdrain] at ih
    rw [List.length_cons, List.replicate_succ]
    unfold session
    simp only [ask, next?_of_open hopen, hgoes, hsame]
    rw [ih]
    rfl

/-! ## Where problems lie -/

/-- The scanner has passed the first of these items of its text and still has the
others before it. -/
def Parts (scanner : Scanner) (text : List Char) (passed left : List Item) : Prop :=
  ∃ before segments, scanner.Sound text before ∧ Splits scanner.cursor.rest segments ∧
    Yields before segments left ∧ ∀ item ∈ passed, item.place < before.length

/-- Passing a segment passes its items, and records the problems among them. -/
theorem Parts.pass {text : List Char} {passed left : List Item} {segment : Segment}
    (h : scanner.Parts text passed left) (hsegment : scanner.segment? = some segment) :
    ∃ gone stay, left = gone ++ stay ∧ (scanner.pass segment).Parts text (passed ++ gone) stay ∧
      (scanner.pass segment).diagnostics.toList =
        scanner.diagnostics.toList ++ diagnosticsOf gone := by
  obtain ⟨before, segments, hsound, hsplits, hyields, hpassed⟩ := h
  generalize hrest : scanner.cursor.rest = rest at hsplits
  rw [hsound.segment?_eq, hrest] at hsegment
  cases hyields with
  | nil =>
    rw [hsplits.nil_text] at hsegment
    cases hsegment
  | @cons _ first segments items more hitems hmore =>
    cases hsplits with
    | @cons _ tail _ hfits htail =>
      have hfirst : first = segment := by
        rw [Segment.first?_of_fitsBefore hfits] at hsegment
        exact Option.some.inj hsegment
      subst hfirst
      refine ⟨items, more, rfl, ⟨before ++ first.text, segments, hsound.pass hrest hfits, ?_,
        hmore, ?_⟩, ?_⟩
      · simpa [Scanner.pass, Cursor.past, hrest] using htail
      · intro item hmem
        rcases List.mem_append.mp hmem with hmem | hmem
        · have := hpassed item hmem
          simp only [List.length_append]
          omega
        · exact ((hitems.between (Segment.text_ne_nil hfits)).2 item hmem).2
      · have hdiagnostics : diagnosticsOf items = first.diagnostics scanner.cursor.line := by
          rw [hsound.stands.line_eq]
          cases hkind : first.kind? with
          | none => exact (hitems.of_skip hkind).2
          | some kind =>
            obtain ⟨hitem, hclean⟩ := hitems.of_kind hkind
            rw [hitem, hclean]
            rfl
        simp [Scanner.pass, hdiagnostics]

/-- Giving a token passes items, and records the problems among them. -/
theorem Parts.nextToken {text : List Char} {passed left : List Item}
    (h : scanner.Parts text passed left) :
    ∃ gone stay, left = gone ++ stay ∧ scanner.nextToken.2.Parts text (passed ++ gone) stay ∧
      scanner.nextToken.2.diagnostics.toList =
        scanner.diagnostics.toList ++ diagnosticsOf gone := by
  fun_induction Scanner.nextToken scanner generalizing passed left with
  | case1 scanner hnone => exact ⟨[], left, rfl, by simpa using h, by simp [diagnosticsOf]⟩
  | case2 scanner segment hsome kind hkind => exact h.pass hsome
  | case3 scanner segment hsome hkind ih =>
    obtain ⟨gone, stay, hleft, hpass, hrecorded⟩ := h.pass hsome
    obtain ⟨more, rest, hstay, hparts, hlater⟩ := ih hpass
    refine ⟨gone ++ more, rest, by rw [hleft, hstay, List.append_assoc], ?_, ?_⟩
    · rwa [← List.append_assoc]
    · rw [hlater, hrecorded, diagnosticsOf_append, List.append_assoc]

/-- A new scanner that has given tokens has recorded the problems that it has
passed. -/
theorem parts_after {items : List Item} (h : Gives text items) (n : Nat) :
    ∃ passed left, items = passed ++ left ∧
      ((ofText text).after n).Parts text.toList passed left ∧
      ((ofText text).after n).diagnostics.toList = diagnosticsOf passed := by
  induction n with
  | zero =>
    obtain ⟨segments, hsplits, hyields⟩ := h
    exact ⟨[], items, rfl, ⟨[], segments, sound_ofText text, hsplits, hyields, by simp⟩, rfl⟩
  | succ n ih =>
    obtain ⟨passed, left, hitems, hparts, hrecorded⟩ := ih
    obtain ⟨gone, stay, hleft, hnext, hlater⟩ := hparts.nextToken
    rw [after_add]
    refine ⟨passed ++ gone, stay, by rw [hitems, hleft, List.append_assoc], hnext, ?_⟩
    rw [diagnosticsOf_append, ← hrecorded]
    exact hlater

/-- The items that a scanner has passed are those before its place. -/
theorem Parts.filter {text : List Char} {passed left : List Item}
    (h : scanner.Parts text passed left) :
    ∃ before, scanner.cursor.Stands text before ∧
      (passed ++ left).filter (fun item => item.place < before.length) = passed := by
  obtain ⟨before, segments, hsound, hsplits, hyields, hpassed⟩ := h
  refine ⟨before, hsound.stands, ?_⟩
  have hkeep : passed.filter (fun item => item.place < before.length) = passed := by
    rw [List.filter_eq_self]
    intro item hmem
    simpa using hpassed item hmem
  have hdrop : left.filter (fun item => item.place < before.length) = [] := by
    rw [List.filter_eq_nil_iff]
    intro item hmem
    have := ((hyields.between hsplits).2 item hmem).1
    simp only [decide_eq_true_eq]
    omega
  rw [List.filter_append, hkeep, hdrop, List.append_nil]

end Scanner

/-- The problems of a text that lie before a place in it. -/
def ProblemsUpTo (text : String) (cursor : Cursor) (problems : List Diagnostic) : Prop :=
  ∃ items before, Gives text items ∧ cursor.Stands text.toList before ∧
    problems = diagnosticsOf (items.filter fun item => item.place < before.length)

theorem Scanner.Follows.problemsUpTo {text : String} {n : Nat} {taken : List Diagnostic}
    {scanner : Scanner} (h : Follows text n taken scanner) :
    ProblemsUpTo text scanner.cursor (taken ++ scanner.diagnostics.toList) := by
  obtain ⟨items, hgives⟩ := exists_gives text
  obtain ⟨passed, left, hitems, hparts, hrecorded⟩ := parts_after hgives n
  obtain ⟨before, hstands, hfilter⟩ := hparts.filter
  refine ⟨items, before, hgives, by rwa [h.beside.cursor_eq], ?_⟩
  rw [h.recorded, hitems, hfilter, hrecorded]

/-- Once the end of the query has been given, all problems have been recorded. -/
theorem Scanner.Follows.all {text : String} {n : Nat} {taken : List Diagnostic}
    {scanner : Scanner} (h : Follows text n taken scanner) (hn : (tokenize text).1.length ≤ n) :
    taken ++ scanner.diagnostics.toList = (tokenize text).2 := by
  obtain ⟨last, hlast, -, hend⟩ := at_end text
  have hlength : (kindsOf text).length = (tokenize text).1.length := by simp [kindsOf]
  have hpos : 0 < (tokenize text).1.length := by
    apply List.length_pos_iff.mpr
    intro hnil
    rw [hnil] at hlast
    cases hlast
  obtain ⟨m, hm⟩ : ∃ m, n = m + 1 := Nat.exists_eq_succ_of_ne_zero (by omega)
  rw [h.recorded, hm, ← scanner_iterate]
  exact (hend m (by omega)).2

/-! ## The law -/

/-- Calls on a scanner, in any order, give what the text has. Token number `i` of
all answers is token number `i` of the text, and past the last one the last one
again. The stream gives no token exactly after it gave the end of the query, and
then it changes nothing; to ask for all that it has is to ask for its next token
until none comes. The problems taken and those still recorded are the problems
that lie before the place reached, and all problems of the text once the end of
the query was given. -/
theorem a_session_gives_what_the_text_has (text : String) (calls : List Call) :
    (∀ i token, ((Scanner.answers text calls).flatMap Answer.given)[i]? = some token →
      (tokenize text).1[min i ((tokenize text).1.length - 1)]? = some token) ∧
    (((Scanner.reached text calls).ask .next).1 = .streamed none ↔
      ∃ token ∈ (Scanner.answers text calls).flatMap Answer.fromStream, token.isEnd = true) ∧
    (((Scanner.reached text calls).ask .next).1 = .streamed none →
      ((Scanner.reached text calls).ask .next).2 = Scanner.reached text calls) ∧
    (∃ tokens, ((Scanner.reached text calls).ask .rest).1 = .tokens tokens ∧
      session Scanner.ask (Scanner.reached text calls)
          (List.replicate (tokens.length + 1) .next) =
        (tokens.map (fun token => .streamed (some token)) ++ [.streamed none],
          ((Scanner.reached text calls).ask .rest).2)) ∧
    ∃ recorded,
      (Scanner.reached text calls).ask .diagnostics =
        (.problems recorded, Scanner.reached text calls) ∧
      ProblemsUpTo text (Scanner.reached text calls).cursor
        (takenIn calls (Scanner.answers text calls) ++ recorded) ∧
      ((∃ token ∈ (Scanner.answers text calls).flatMap Answer.given, token.isEnd = true) →
        takenIn calls (Scanner.answers text calls) ++ recorded = (tokenize text).2) := by
  have hfollows := (Scanner.follows_ofText text).session calls
  rw [Nat.zero_add, List.nil_append] at hfollows
  have hfinished := Scanner.finished_session (Scanner.ofText text) calls
  refine ⟨?_, ?_, ?_, ?_, _, rfl, hfollows.problemsUpTo, ?_⟩
  · intro i token hi
    rw [Scanner.getElem?_tokenize, Scanner.get_coming_of_given hi]
  · have hopen : (Scanner.ofText text).finished = false := rfl
    rw [Scanner.ask_next_eq_none_iff, Scanner.reached, hfinished, hopen, Bool.false_or,
      List.any_eq_true]
    rfl
  · intro hnone
    rw [Scanner.ask_next_eq_none_iff] at hnone
    unfold Scanner.ask
    rw [Scanner.next?_of_finished hnone]
  · exact ⟨_, rfl, Scanner.session_next_of_drain _⟩
  · intro hend
    obtain ⟨token, hmem, htoken⟩ := hend
    obtain ⟨i, hi⟩ := List.getElem?_of_mem hmem
    obtain ⟨hlt, -⟩ := List.getElem?_eq_some_iff.mp hi
    have hlast := Scanner.length_le_of_isEnd (Scanner.get_coming_of_given hi ▸ htoken)
    apply hfollows.all
    unfold Scanner.answers at hlt
    omega

end SelectQuery
