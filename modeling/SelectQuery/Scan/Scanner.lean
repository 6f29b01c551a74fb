-- The scanner: it goes over a text segment by segment, hands out a token at a
-- time and records what it had to skip. Main statement: every token but the
-- end of the query makes the rest of the text shorter.
import SelectQuery.Scan.Segment

namespace SelectQuery

/-- A scanner at some place of a text. -/
structure Scanner where
  /-- The place in the text. -/
  cursor : Cursor
  /-- The problems met and not yet taken, in the order of the text. -/
  diagnostics : Array Diagnostic
  /-- The stream of tokens has given its last one. -/
  finished : Bool
  /-- The place of a quote that is known to have no closing quote. No later
  quote has one either, so none is searched for again. -/
  unclosedFrom : Option Nat
  deriving DecidableEq, Repr

namespace Scanner

/-- A scanner before the first character of a text. -/
def ofText (text : String) : Scanner :=
  { cursor := Cursor.start text, diagnostics := #[], finished := false, unclosedFrom := none }

/-! ## One segment -/

/-- A quote at the cursor is known to have no closing quote. -/
def knowsUnclosed (scanner : Scanner) : Bool :=
  scanner.unclosedFrom.any (· < scanner.cursor.offset)

/-- The segment at the cursor. -/
def segment? (scanner : Scanner) : Option Segment :=
  if scanner.cursor.rest.head? = some '\'' ∧ scanner.knowsUnclosed then some .openQuote
  else Segment.first? scanner.cursor.rest

/-- The scanner after the segment at its cursor. -/
def pass (scanner : Scanner) (segment : Segment) : Scanner :=
  { scanner with
    cursor := scanner.cursor.past segment.text
    diagnostics := scanner.diagnostics ++ segment.diagnostics scanner.cursor.line
    unclosedFrom :=
      match segment with
      | .openQuote => scanner.unclosedFrom.or (some scanner.cursor.offset)
      | _ => scanner.unclosedFrom }

/-- The segment at the cursor is a stretch that is not empty, at the start of
the rest. -/
theorem text_segment? {scanner : Scanner} {segment : Segment}
    (h : scanner.segment? = some segment) :
    segment.text ≠ [] ∧ ∃ rest, scanner.cursor.rest = segment.text ++ rest := by
  unfold segment? at h
  split at h
  · next hq =>
    cases h
    obtain ⟨tail, htail⟩ := List.head?_eq_some_iff.mp hq.1
    exact ⟨by simp [Segment.text], tail, by simp [Segment.text, htail]⟩
  · exact Segment.text_first? h

theorem segment?_eq_none_iff (scanner : Scanner) :
    scanner.segment? = none ↔ scanner.cursor.rest = [] := by
  unfold segment?
  split
  · next hq =>
    obtain ⟨tail, htail⟩ := List.head?_eq_some_iff.mp hq.1
    simp [htail]
  · exact Segment.first?_eq_none_iff _

theorem length_rest_pass_lt {scanner : Scanner} {segment : Segment}
    (h : scanner.segment? = some segment) :
    (scanner.pass segment).cursor.rest.length < scanner.cursor.rest.length := by
  obtain ⟨hne, rest, hrest⟩ := text_segment? h
  have hpos := List.length_pos_iff.mpr hne
  simp only [pass, Cursor.past, hrest, List.drop_left, List.length_append]
  omega

/-! ## Tokens -/

/-- The next token: segments that give none are passed over. At the end of the
text it is the end of the query, again and again. -/
def nextToken (scanner : Scanner) : Token × Scanner :=
  match _ : scanner.segment? with
  | none => (⟨.endOfInput, scanner.cursor.line⟩, scanner)
  | some segment =>
    match segment.kind? with
    | some kind => (⟨kind, scanner.cursor.line⟩, scanner.pass segment)
    | none => (scanner.pass segment).nextToken
termination_by scanner.cursor.rest.length
decreasing_by exact length_rest_pass_lt (by assumption)

theorem nextToken_of_none {scanner : Scanner} (h : scanner.segment? = none) :
    scanner.nextToken = (⟨.endOfInput, scanner.cursor.line⟩, scanner) := by
  rw [nextToken]
  split <;> simp_all

theorem nextToken_of_kind {scanner : Scanner} {segment : Segment} {kind : Token.Kind}
    (h : scanner.segment? = some segment) (hkind : segment.kind? = some kind) :
    scanner.nextToken = (⟨kind, scanner.cursor.line⟩, scanner.pass segment) := by
  rw [nextToken]
  split
  · simp_all
  · next s hs =>
    obtain rfl : s = segment := Option.some.inj (hs.symm.trans h)
    rw [hkind]

theorem nextToken_of_skip {scanner : Scanner} {segment : Segment}
    (h : scanner.segment? = some segment) (hkind : segment.kind? = none) :
    scanner.nextToken = (scanner.pass segment).nextToken := by
  rw [nextToken]
  split
  · simp_all
  · next s hs =>
    obtain rfl : s = segment := Option.some.inj (hs.symm.trans h)
    rw [hkind]

theorem length_rest_nextToken_le (scanner : Scanner) :
    scanner.nextToken.2.cursor.rest.length ≤ scanner.cursor.rest.length := by
  fun_induction nextToken scanner with
  | case1 => exact Nat.le_refl _
  | case2 scanner segment h => exact Nat.le_of_lt (length_rest_pass_lt h)
  | case3 scanner segment h _ ih => exact Nat.le_trans ih (Nat.le_of_lt (length_rest_pass_lt h))

/-- Every token but the end of the query makes the rest of the text shorter. -/
theorem length_rest_nextToken_lt {scanner : Scanner} (h : scanner.nextToken.1.isEnd = false) :
    scanner.nextToken.2.cursor.rest.length < scanner.cursor.rest.length := by
  fun_induction nextToken scanner with
  | case1 => simp [Token.isEnd, Token.Kind.isEnd] at h
  | case2 scanner segment hs => exact length_rest_pass_lt hs
  | case3 scanner segment hs _ ih => exact Nat.lt_trans (ih h) (length_rest_pass_lt hs)

/-! ## The stream of tokens -/

/-- The next token of the stream, which stops after the end of the query. -/
def next? (scanner : Scanner) : Option Token × Scanner :=
  if scanner.finished then (none, scanner)
  else
    let (token, scanner) := scanner.nextToken
    (some token, { scanner with finished := token.isEnd })

/-- All tokens that the stream still has, and the scanner at its end. -/
def drain (scanner : Scanner) : List Token × Scanner :=
  if scanner.finished then ([], scanner)
  else
    let step := scanner.nextToken
    if _ : step.1.isEnd then ([step.1], { step.2 with finished := true })
    else
      let (tokens, last) := step.2.drain
      (step.1 :: tokens, last)
termination_by scanner.cursor.rest.length
decreasing_by exact length_rest_nextToken_lt (by simp_all [step])

/-- The problems recorded so far, and the scanner without them. -/
def takeDiagnostics (scanner : Scanner) : List Diagnostic × Scanner :=
  (scanner.diagnostics.toList, { scanner with diagnostics := #[] })

end Scanner

/-- All tokens of a text, the end of the query included, and its problems. -/
def tokenize (text : String) : List Token × List Diagnostic :=
  let (tokens, scanner) := (Scanner.ofText text).drain
  (tokens, scanner.diagnostics.toList)

end SelectQuery
