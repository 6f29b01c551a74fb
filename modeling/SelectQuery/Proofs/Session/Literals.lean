-- String literals in a text and their contents. A literal that is written out is
-- read back wherever the scanner comes to it, and a string that is read stands in
-- the text just as it is written out. So each content has one literal, and each
-- literal one content.
import SelectQuery.Proofs.Scan.Spelling
import SelectQuery.Proofs.Session.Scanner
import SelectQuery.Statement.Value

namespace SelectQuery

/-! ## Pieces and contents -/

namespace Literal

/-- Escaping undoes unescaping: where a literal has a content, its pieces are those
of the content. -/
theorem eq_piecesOf {pieces : List Piece} {value : String} (hfits : ∀ p ∈ pieces, p.Fits)
    (h : value? pieces = some value) : pieces = piecesOf value := by
  unfold value? at h
  split at h
  · rename_i hvalid
    rw [List.all_eq_true] at hvalid
    cases h
    unfold piecesOf
    rw [String.toList_ofList, List.map_map]
    have hsame : ∀ p ∈ pieces, (Piece.ofChar ∘ Piece.char) p = p := fun p hp =>
      (Piece.eq_ofChar (hfits p hp) (hvalid p hp)).symm
    exact (List.map_id' pieces).symm.trans (List.map_congr_left hsame).symm
  · cases h

/-- Pieces that fit can be told from how they are written. -/
theorem text_inj {pieces others : List Piece} (hfits : ∀ p ∈ pieces, p.Fits)
    (hothers : ∀ p ∈ others, p.Fits) (h : text pieces = text others) : pieces = others := by
  have hbody := body?_inner hfits []
  have htail := (List.cons.inj h).2
  rw [htail, body?_inner hothers []] at hbody
  exact (Option.some.inj hbody).symm

/-- The literals with a content are those that are written for it. -/
theorem value?_eq_some_iff {pieces : List Piece} (hfits : ∀ p ∈ pieces, p.Fits)
    (value : String) : value? pieces = some value ↔ text pieces = (write value).toList := by
  rw [toList_write]
  constructor
  · intro h
    rw [← eq_piecesOf hfits h]
  · intro h
    rw [text_inj hfits (fits_piecesOf value) h]
    exact value?_piecesOf value

end Literal

/-- A string token stands in the text as it is written out. -/
theorem Segment.text_of_string {segment : Segment} {rest : List Char} {s : String}
    (hfits : segment.FitsBefore rest) (hkind : segment.kind? = some (.string s)) :
    segment.text = (Literal.write s).toList := by
  cases segment with
  | literal pieces =>
    obtain ⟨value, hvalue, hstring⟩ := Option.map_eq_some_iff.mp hkind
    cases hstring
    exact (Literal.value?_eq_some_iff hfits s).mp hvalue
  | word letters =>
    simp only [kind?, Token.Kind.ofWord, Option.some.injEq] at hkind
    split at hkind <;> cases hkind
  | digits run =>
    obtain ⟨n, -, hnumber⟩ := Option.map_eq_some_iff.mp hkind
    cases hnumber
  | mark m => cases hkind
  | blank run => cases hkind
  | openQuote => cases hkind
  | stray c => cases hkind

namespace Scanner

variable {scanner : Scanner} {text : List Char}

/-! ## Scanners in good order, at any time -/

theorem SoundIn.after (h : SoundIn text scanner) (n : Nat) : SoundIn text (scanner.after n) := by
  induction n generalizing scanner with
  | zero => exact h
  | succ n ih =>
    rw [after_succ]
    exact ih h.nextToken.2

theorem soundIn_reached (text : String) (calls : List Call) :
    SoundIn text.toList (reached text calls) := by
  obtain ⟨-, hsound, -⟩ := session_of_step (R := Alike text.toList)
    (fun _ _ call h => h.ask call) (alike_ofText text) calls
  exact hsound

/-- A call ends where the tokens that it gives end. -/
theorem cursor_ask (text : String) (calls : List Call) (call : Call) :
    ((reached text calls).ask call).2.cursor =
      ((reached text calls).after ((reached text calls).ask call).1.given.length).cursor := by
  have hfollows := (follows_ofText text).session calls
  have hcall := (hfollows.ask call).beside.cursor_eq
  rw [after_add, ← (hfollows.beside.after _).cursor_eq] at hcall
  exact hcall

theorem given_ask {call : Call} {n : Nat} {token : Token}
    (h : (scanner.ask call).1.given[n]? = some token) : (scanner.after n).nextToken.1 = token := by
  obtain ⟨hn, htoken⟩ := List.getElem?_eq_some_iff.mp h
  rw [← get_coming, ← given_append_coming scanner call, Stream'.get_append_left _ _ _ hn]
  exact htoken

/-! ## One literal -/

/-- A literal at the cursor gives its string and is passed, and nothing else. -/
theorem SoundIn.nextToken_literal (h : SoundIn text scanner) {s : String} {rest : List Char}
    (hrest : scanner.cursor.rest = (Literal.write s).toList ++ rest) :
    ∃ after, scanner.nextToken = (⟨.string s, scanner.cursor.line⟩, after) ∧
      after.cursor = scanner.cursor.past (Literal.write s).toList ∧
      after.cursor.rest = rest ∧ after.diagnostics = scanner.diagnostics := by
  obtain ⟨before, hsound⟩ := h
  obtain ⟨segment, htext, hfits, hkind⟩ := scansAs_string s rest
  have hsegment : scanner.segment? = some segment := by
    rw [hsound.segment?_eq, hrest, ← htext]
    exact Segment.first?_of_fitsBefore hfits
  obtain ⟨items, hitems⟩ := segment.exists_yields before
  have hclean := (hitems.of_kind hkind).2 scanner.cursor.line
  refine ⟨scanner.pass segment, nextToken_of_kind hsegment hkind, ?_, ?_, ?_⟩
  · unfold Scanner.pass
    rw [htext]
  · simp [Scanner.pass, Cursor.past, hrest, htext]
  · simp [Scanner.pass, hclean]

theorem stops_of_kind {segment : Segment} {kind : Token.Kind}
    (h : scanner.segment? = some segment) (hkind : segment.kind? = some kind) :
    scanner.stops = [scanner.cursor, (scanner.pass segment).cursor] := by
  rw [stops]
  split <;> simp_all

theorem stops_of_skip {segment : Segment} (h : scanner.segment? = some segment)
    (hkind : segment.kind? = none) :
    scanner.stops = scanner.cursor :: (scanner.pass segment).stops := by
  rw [stops]
  split <;> simp_all

/-- Where the next token is a string, the last place before its end is its opening
quote, and from there the scanner passes the string as it is written out. -/
theorem SoundIn.stops_of_string (h : SoundIn text scanner) {s : String}
    (hstring : scanner.nextToken.1.kind = .string s) :
    ∃ places opening, scanner.stops = places ++ [opening, scanner.nextToken.2.cursor] ∧
      opening.rest = (Literal.write s).toList ++ scanner.nextToken.2.cursor.rest ∧
      scanner.nextToken.2.cursor = opening.past (Literal.write s).toList ∧
      opening.line = scanner.nextToken.1.line := by
  -- The induction goes over the segments that give no token.
  fun_induction Scanner.nextToken scanner with
  | case1 scanner hnone => cases hstring
  | case2 scanner segment hsome kind hkind =>
    obtain rfl : kind = .string s := hstring
    obtain ⟨before, hsound⟩ := h
    have hfirst : Segment.first? scanner.cursor.rest = some segment := by
      rw [← hsound.segment?_eq]
      exact hsome
    obtain ⟨rest, hrest, hfits⟩ := Segment.fitsBefore_of_first? hfirst
    have htext := Segment.text_of_string hfits hkind
    refine ⟨[], scanner.cursor, stops_of_kind hsome hkind, ?_, ?_, rfl⟩
    · simp [Scanner.pass, Cursor.past, hrest, htext]
    · simp only [Scanner.pass, htext]
  | case3 scanner segment hsome hkind ih =>
    obtain ⟨places, opening, hstops, hpassed⟩ := ih (h.pass hsome) hstring
    refine ⟨scanner.cursor :: places, opening, ?_, hpassed⟩
    rw [stops_of_skip hsome hkind, hstops]
    rfl

end Scanner

/-! ## The law -/

/-- The syntax of string literals and their contents, each from the other. A
scanner that has come to a literal as it is written out gives its content, records
no problem and stops right behind it. Wherever a scanner gives a string, the last
place before the end of the token is its opening quote, and from there the scanner
has passed that string as it is written out. And of all literals, the one with a
given content is the one that is written for it. -/
theorem a_string_is_read_as_it_is_written (text : String) (calls : List Call) (s : String) :
    (∀ rest, (Scanner.reached text calls).cursor.rest = (Value.string s).sql.toList ++ rest →
      ∃ after,
        (Scanner.reached text calls).ask .nextToken =
          (.token ⟨.string s, (Scanner.reached text calls).cursor.line⟩, after) ∧
        after.cursor =
          (Scanner.reached text calls).cursor.past (Value.string s).sql.toList ∧
        after.cursor.rest = rest ∧
        after.diagnostics = (Scanner.reached text calls).diagnostics) ∧
    (∀ call,
      ((Scanner.reached text calls).ask call).2.cursor =
        ((Scanner.reached text calls).after
          ((Scanner.reached text calls).ask call).1.given.length).cursor ∧
      ∀ n line, ((Scanner.reached text calls).ask call).1.given[n]? = some ⟨.string s, line⟩ →
        ∃ places opening closing,
          ((Scanner.reached text calls).after n).stops = places ++ [opening, closing] ∧
          closing = ((Scanner.reached text calls).after (n + 1)).cursor ∧
          opening.rest = (Value.string s).sql.toList ++ closing.rest ∧
          closing = opening.past (Value.string s).sql.toList ∧
          opening.line = line) ∧
    ∀ pieces : List Literal.Piece, (∀ p ∈ pieces, p.Fits) →
      (Literal.value? pieces = some s ↔ Literal.text pieces = (Value.string s).sql.toList) := by
  have hsound := Scanner.soundIn_reached text calls
  refine ⟨?_, ?_, ?_⟩
  · intro rest hrest
    obtain ⟨after, hnext, hafter⟩ := hsound.nextToken_literal hrest
    refine ⟨after, ?_, hafter⟩
    unfold Scanner.ask
    rw [hnext]
  · intro call
    refine ⟨Scanner.cursor_ask text calls call, ?_⟩
    intro n line hgiven
    have htoken := Scanner.given_ask hgiven
    obtain ⟨places, opening, hstops, hrest, hpast, hline⟩ :=
      (hsound.after n).stops_of_string (congrArg Token.kind htoken)
    have hnext : ((Scanner.reached text calls).after n).nextToken.2 =
        (Scanner.reached text calls).after (n + 1) := by
      rw [Scanner.after_add]
      rfl
    rw [hnext] at hstops hrest hpast
    refine ⟨places, opening, _, hstops, rfl, hrest, hpast, ?_⟩
    rw [hline, htoken]
  · intro pieces hfits
    exact Literal.value?_eq_some_iff hfits s

end SelectQuery
