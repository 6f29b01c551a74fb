-- The scanner by byte offsets, step by step: over one character after another, to the
-- next quote or backslash, to the next token. Each cut of the text may fail, and a
-- loop has to move on to go on. From a place between two characters no step fails,
-- and each stops where the characters that it passes end.
import SelectQuery.Proofs.Scan.Session
import SelectQuery.Proofs.Text.Cuts

namespace SelectQuery

/-- A scanner that knows its place only by the bytes before it, and cuts its text
there. A step of it gives nothing if it has to cut the text anywhere but between two
characters, or would go on for ever. -/
structure OffsetScanner where
  /-- The number of bytes before the place. -/
  position : Nat
  /-- The line of the place, counted from 1. -/
  line : Nat
  /-- The problems met and not yet taken, in the order of the text. -/
  diagnostics : Array Diagnostic
  /-- The stream of tokens has given its last one. -/
  finished : Bool
  /-- The place of a quote that is known to have no closing quote. -/
  unclosedFrom : Option Nat
  deriving DecidableEq, Repr

namespace OffsetScanner

/-- A scanner before the first character of its text. -/
def start : OffsetScanner :=
  { position := 0, line := 1, diagnostics := #[], finished := false, unclosedFrom := none }

/-- The scanner behind some characters. -/
def past (scanner : OffsetScanner) (taken : List Char) : OffsetScanner :=
  { scanner with
    position := scanner.position + byteLength taken
    line := scanner.line + lineFeeds taken }

/-- The scanner with more problems. -/
def report (scanner : OffsetScanner) (problems : List Diagnostic) : OffsetScanner :=
  { scanner with diagnostics := scanner.diagnostics ++ problems }

/-- The scanner that has found the quote at its place to have no closing quote. -/
def remember (scanner : OffsetScanner) : OffsetScanner :=
  { scanner with unclosedFrom := some scanner.position }

variable (text : String)

/-! ## Characters -/

/-- The characters from the place on. -/
def rest? (scanner : OffsetScanner) : Option (List Char) :=
  cut? text scanner.position text.utf8ByteSize

/-- Moves over the next character; at the end of the text there is none. -/
def advance? (scanner : OffsetScanner) : Option OffsetScanner :=
  (scanner.rest? text).map fun rest => scanner.past (rest.take 1)

variable {text}

theorem rest?_past {scanner : OffsetScanner} (taken : List Char) {rest : List Char}
    (h : scanner.rest? text = some (taken ++ rest)) :
    (scanner.past taken).rest? text = some rest :=
  cut?_rest_append taken h

@[simp]
theorem rest?_report (scanner : OffsetScanner) (problems : List Diagnostic) :
    (scanner.report problems).rest? text = scanner.rest? text := rfl

@[simp]
theorem report_nil (scanner : OffsetScanner) : scanner.report [] = scanner := by
  simp [report]

@[simp]
theorem position_report (scanner : OffsetScanner) (problems : List Diagnostic) :
    (scanner.report problems).position = scanner.position := rfl

theorem past_past (scanner : OffsetScanner) (taken more : List Char) :
    (scanner.past taken).past more = scanner.past (taken ++ more) := by
  simp [past, Nat.add_assoc]

theorem position_lt {scanner : OffsetScanner} {c : Char} {cs : List Char}
    (h : scanner.rest? text = some (c :: cs)) :
    scanner.position < (scanner.past [c]).position ∧
      (scanner.past [c]).position ≤ text.utf8ByteSize := by
  have := c.utf8Size_pos
  have := utf8ByteSize_of_rest h
  simp only [past, byteLength_cons, byteLength_nil] at *
  omega

variable (text)

/-- Moves on as long as the next character is accepted. -/
def skipWhile? (accept : Char → Bool) (scanner : OffsetScanner) : Option OffsetScanner :=
  match _ : scanner.rest? text with
  | none => none
  | some [] => some scanner
  | some (c :: _) => if accept c then skipWhile? accept (scanner.past [c]) else some scanner
termination_by text.utf8ByteSize - scanner.position
decreasing_by
  have := position_lt (by assumption)
  omega

/-- The run of accepted characters at the place, and the scanner behind it. -/
def readWhile? (accept : Char → Bool) (scanner : OffsetScanner) :
    Option (List Char × OffsetScanner) := do
  let after ← scanner.skipWhile? text accept
  let run ← cut? text scanner.position after.position
  return (run, after)

/-- Moves over one character after another up to an offset. -/
def advanceTo? (stop : Nat) (scanner : OffsetScanner) : Option OffsetScanner :=
  if scanner.position < stop then
    match _ : scanner.rest? text with
    | none => none
    -- With no character left there is no moving on, and the offset is never reached.
    | some [] => none
    | some (c :: _) => advanceTo? stop (scanner.past [c])
  else some scanner
termination_by text.utf8ByteSize - scanner.position
decreasing_by
  have := position_lt (by assumption)
  omega

variable {text} {scanner : OffsetScanner}

theorem skipWhile?_eq {accept : Char → Bool} {rest : List Char}
    (h : scanner.rest? text = some rest) :
    scanner.skipWhile? text accept = some (scanner.past (rest.takeWhile accept)) := by
  induction rest generalizing scanner with
  | nil =>
    rw [skipWhile?]
    split <;> simp_all [past]
  | cons c cs ih =>
    have hnext := rest?_past [c] h
    rw [skipWhile?]
    split
    · simp_all
    · simp_all
    · next hrest =>
      rw [h] at hrest
      cases hrest
      by_cases haccept : accept c = true
      · rw [if_pos haccept, ih hnext, past_past, List.takeWhile_cons_of_pos haccept]
        rfl
      · rw [if_neg haccept, List.takeWhile_cons_of_neg haccept]
        simp [past]

theorem readWhile?_eq {accept : Char → Bool} {rest : List Char}
    (h : scanner.rest? text = some rest) :
    scanner.readWhile? text accept =
      some (rest.takeWhile accept, scanner.past (rest.takeWhile accept)) := by
  have hsplit : scanner.rest? text = some (rest.takeWhile accept ++ rest.dropWhile accept) := by
    rw [List.takeWhile_append_dropWhile, h]
  have hrun : cut? text scanner.position (scanner.past (rest.takeWhile accept)).position =
      some (rest.takeWhile accept) := cut?_taken hsplit
  simp [readWhile?, skipWhile?_eq h, hrun]

/-- Moving on character by character stops exactly at an offset between two of them. -/
theorem advanceTo?_eq {taken rest : List Char}
    (h : scanner.rest? text = some (taken ++ rest)) :
    scanner.advanceTo? text (scanner.position + byteLength taken) =
      some (scanner.past taken) := by
  induction taken generalizing scanner with
  | nil =>
    rw [advanceTo?, if_neg (by simp)]
    simp [past]
  | cons c cs ih =>
    have hstop : (scanner.past [c]).position + byteLength cs =
        scanner.position + byteLength (c :: cs) := by
      simp [past, Nat.add_assoc]
    have hpos := byteLength_pos (List.cons_ne_nil c cs)
    rw [advanceTo?, if_pos (by omega)]
    split
    · simp_all
    · simp_all
    · next hrest =>
      rw [h] at hrest
      cases hrest
      rw [← hstop, ih (rest?_past [c] h), past_past]
      rfl

variable (text)

/-! ## Searching for a closing quote -/

/-- What a search for the closing quote of a literal finds. -/
inductive Found where
  /-- The text ends before one. -/
  | unclosed
  /-- Where the literal ends, the characters that it stands for, and the characters
  with an improper escape, each with the offset of its backslash. -/
  | closed (stop : Nat) (value : List Char) (bad : List (Char × Nat))
  deriving DecidableEq, Repr

/-- Where the literal ends whose quote stands at `position` and from behind which the
search was. A quote without a closing one ends behind itself. -/
def Found.stop (position : Nat) : Found → Nat
  | .unclosed => position + 1
  | .closed stop _ _ => stop

/-- Where the first quote or backslash from an offset on stands, and which it is. -/
def findSpecial? (cursor : Nat) : Option (Nat × Option Char) :=
  (cut? text cursor text.utf8ByteSize).map fun rest =>
    (cursor + byteLength (rest.takeWhile (!Literal.isSpecial ·)),
      (rest.dropWhile (!Literal.isSpecial ·)).head?)

theorem le_of_findSpecial? {text : String} {cursor first : Nat} {special? : Option Char}
    (h : findSpecial? text cursor = some (first, special?)) : cursor ≤ first := by
  obtain ⟨rest, -, hrest⟩ := Option.map_eq_some_iff.mp h
  cases hrest
  exact Nat.le_add_right ..

/-- Searches from an offset on for the closing quote of a literal, going from one quote
or backslash to the next. -/
def search? (cursor : Nat) (value : List Char) (bad : List (Char × Nat)) : Option Found :=
  match _ : findSpecial? text cursor with
  | none => none
  | some (_, none) => some .unclosed
  | some (first, some special) =>
    match cut? text cursor first with
    | none => none
    | some plain =>
      if special = '\'' then some (.closed (first + special.utf8Size) (value ++ plain) bad)
      else
        match _ : cut? text (first + special.utf8Size) text.utf8ByteSize with
        | none => none
        | some [] => some .unclosed
        | some (c :: _) =>
          if Literal.isSpecial c then
            search? (first + special.utf8Size + c.utf8Size) (value ++ plain ++ [c]) bad
          else
            search? (first + special.utf8Size + c.utf8Size) (value ++ plain) (bad ++ [(c, first)])
termination_by text.utf8ByteSize - cursor
decreasing_by
  all_goals
    have := le_of_findSpecial? (by assumption)
    have := utf8ByteSize_of_rest (by assumption)
    have := c.utf8Size_pos
    simp only [byteLength_cons] at *
    omega

variable {text} {cursor : Nat} {value : List Char} {bad : List (Char × Nat)}

/-- One round of the search: up to the next quote or backslash, and over what a
backslash takes. -/
theorem search?_step {rest : List Char} (h : cut? text cursor text.utf8ByteSize = some rest) :
    search? text cursor value bad =
      match rest.dropWhile (!Literal.isSpecial ·) with
      | [] => some .unclosed
      | special :: after =>
        let first := cursor + byteLength (rest.takeWhile (!Literal.isSpecial ·))
        let plain := value ++ rest.takeWhile (!Literal.isSpecial ·)
        if special = '\'' then some (.closed (first + special.utf8Size) plain bad)
        else
          match after with
          | [] => some .unclosed
          | c :: _ =>
            if Literal.isSpecial c then
              search? text (first + special.utf8Size + c.utf8Size) (plain ++ [c]) bad
            else
              search? text (first + special.utf8Size + c.utf8Size) plain (bad ++ [(c, first)]) := by
  have hsplit : cut? text cursor text.utf8ByteSize = some (rest.takeWhile (!Literal.isSpecial ·) ++
      rest.dropWhile (!Literal.isSpecial ·)) := by
    rw [List.takeWhile_append_dropWhile, h]
  have hplain := cut?_taken hsplit
  have htail := cut?_rest_append _ hsplit
  have hfind : findSpecial? text cursor =
      some (cursor + byteLength (rest.takeWhile (!Literal.isSpecial ·)),
        (rest.dropWhile (!Literal.isSpecial ·)).head?) := by
    rw [findSpecial?, h, Option.map_some]
  generalize rest.takeWhile (!Literal.isSpecial ·) = run at *
  generalize rest.dropWhile (!Literal.isSpecial ·) = tail at *
  cases tail with
  | nil =>
    rw [search?]
    split <;> simp_all
  | cons special after =>
    have hafter : cut? text (cursor + byteLength run + special.utf8Size) text.utf8ByteSize =
        some after := cut?_rest_append [special] htail
    rw [search?]
    split
    · simp_all
    · simp_all
    · next hfound =>
      rw [hfind] at hfound
      cases hfound
      rw [hplain]
      cases after with
      | nil =>
        simp only
        split
        · rfl
        · split <;> simp_all
      | cons c cs =>
        simp only
        split
        · rfl
        · split
          · simp_all
          · simp_all
          · next hc =>
            rw [hafter] at hc
            cases hc
            rfl

theorem search?_nil (h : cut? text cursor text.utf8ByteSize = some []) :
    search? text cursor value bad = some .unclosed := by
  rw [search?_step h]
  rfl

theorem search?_quote {rest : List Char}
    (h : cut? text cursor text.utf8ByteSize = some ('\'' :: rest)) :
    search? text cursor value bad = some (.closed (cursor + 1) value bad) := by
  have hsize : '\''.utf8Size = 1 := by decide
  rw [search?_step h]
  simp [Literal.isSpecial, hsize]

theorem search?_backslash (h : cut? text cursor text.utf8ByteSize = some ['\\']) :
    search? text cursor value bad = some .unclosed := by
  rw [search?_step h]
  simp [Literal.isSpecial]

theorem search?_escape {c : Char} {rest : List Char}
    (h : cut? text cursor text.utf8ByteSize = some ('\\' :: c :: rest)) :
    search? text cursor value bad =
      if Literal.isSpecial c then search? text (cursor + 1 + c.utf8Size) (value ++ [c]) bad
      else search? text (cursor + 1 + c.utf8Size) value (bad ++ [(c, cursor)]) := by
  have hsize : '\\'.utf8Size = 1 := by decide
  have hspecial : Literal.isSpecial '\\' = true := by decide
  rw [search?_step h]
  simp [hspecial, hsize]

/-- A character that is neither passes into the value. -/
theorem search?_plain {c : Char} {rest : List Char} (hc : Literal.isSpecial c = false)
    (h : cut? text cursor text.utf8ByteSize = some (c :: rest)) :
    search? text cursor value bad = search? text (cursor + c.utf8Size) (value ++ [c]) bad := by
  have hrest : cut? text (cursor + c.utf8Size) text.utf8ByteSize = some rest :=
    cut?_rest_append [c] h
  rw [search?_step h, search?_step hrest]
  simp [hc, Nat.add_assoc]

/-- The characters that the proper pieces stand for. -/
def properChars (pieces : List Literal.Piece) : List Char :=
  pieces.flatMap fun piece => if piece.isValid then [piece.char] else []

/-- The characters with an improper escape, each with the offset of its backslash; the
first piece stands at `offset`. -/
def badOffsets (offset : Nat) : List Literal.Piece → List (Char × Nat)
  | [] => []
  | piece :: pieces =>
    let later := badOffsets (offset + byteLength piece.text) pieces
    if piece.isValid then later else (piece.char, offset) :: later

/-- What a search finds, by the pieces from its offset on. -/
def Found.ofBody (cursor : Nat) (value : List Char) (bad : List (Char × Nat)) :
    Option (List Literal.Piece) → Found
  | none => .unclosed
  | some pieces =>
    .closed (cursor + byteLength (Literal.inner pieces) + 1) (value ++ properChars pieces)
      (bad ++ badOffsets cursor pieces)

theorem Found.stop_ofBody (position : Nat) (pieces : List Literal.Piece) :
    (Found.ofBody (position + 1) [] [] (some pieces)).stop position =
      position + byteLength (Literal.text pieces) := by
  have hsize : '\''.utf8Size = 1 := by decide
  simp only [Found.ofBody, Found.stop, Literal.text, byteLength_cons, byteLength_append,
    byteLength_nil, hsize]
  omega

theorem Found.ofBody_plain (c : Char) (body : Option (List Literal.Piece)) :
    Found.ofBody (cursor + c.utf8Size) (value ++ [c]) bad body =
      Found.ofBody cursor value bad (body.map (.plain c :: ·)) := by
  cases body with
  | none => rfl
  | some pieces =>
    simp [Found.ofBody, properChars, badOffsets, Literal.Piece.isValid, Literal.Piece.text,
      Literal.Piece.char, Nat.add_assoc]

theorem Found.ofBody_escape (c : Char) (body : Option (List Literal.Piece)) :
    (if Literal.isSpecial c then Found.ofBody (cursor + 1 + c.utf8Size) (value ++ [c]) bad body
      else Found.ofBody (cursor + 1 + c.utf8Size) value (bad ++ [(c, cursor)]) body) =
      Found.ofBody cursor value bad (body.map (.escape c :: ·)) := by
  have hsize : '\\'.utf8Size = 1 := by decide
  cases body with
  | none => simp [Found.ofBody]
  | some pieces =>
    by_cases hc : Literal.isSpecial c = true
    · simp [Found.ofBody, properChars, badOffsets, Literal.Piece.isValid, Literal.Piece.text,
        Literal.Piece.char, Nat.add_assoc, hc, hsize]
    · simp [Found.ofBody, properChars, badOffsets, Literal.Piece.isValid, Literal.Piece.text,
        Literal.Piece.char, Nat.add_assoc, hc, hsize]

/-- A search finds the pieces of the literal, wherever it starts between two characters. -/
theorem search?_eq {rest : List Char} (h : cut? text cursor text.utf8ByteSize = some rest) :
    search? text cursor value bad = some (.ofBody cursor value bad (Literal.body? rest)) := by
  fun_induction Literal.body? rest generalizing cursor value bad with
  | case1 => exact search?_nil h
  | case2 rest =>
    rw [search?_quote h]
    simp [Found.ofBody, properChars, badOffsets]
  | case3 => exact search?_backslash h
  | case4 c rest ih =>
    have hsize : byteLength ['\\', c] = 1 + c.utf8Size := by simp; decide
    have hrest := cut?_rest_append ['\\', c] h
    rw [hsize, ← Nat.add_assoc] at hrest
    rw [search?_escape h, ih hrest, ih hrest, ← Found.ofBody_escape]
    split <;> rfl
  | case5 c rest hquote hback hmore ih =>
    have hback' : c ≠ '\\' := by
      rintro rfl
      cases rest with
      | nil => exact hback rfl rfl
      | cons d ds => exact hmore d ds rfl rfl
    have hc : Literal.isSpecial c = false := by
      simpa [Literal.isSpecial] using ⟨hquote, hback'⟩
    have hrest : cut? text (cursor + c.utf8Size) text.utf8ByteSize = some rest :=
      cut?_rest_append [c] h
    rw [search?_plain hc h, ih hrest, Found.ofBody_plain]

variable (text)

/-! ## Reading a string -/

/-- The problems of improper escapes, each on the line of its backslash. The line feeds
are counted from one backslash to the next. -/
def reportBad? (line counted : Nat) : List (Char × Nat) → Option (List Diagnostic)
  | [] => some []
  | (c, offset) :: bad => do
    let between ← cut? text counted offset
    let later ← reportBad? (line + lineFeeds between) offset bad
    return ⟨.invalidEscape c, line + lineFeeds between⟩ :: later

/-- Reports the quote at the place and moves over it alone. -/
def passQuote? (scanner : OffsetScanner) : Option (Option String × OffsetScanner) := do
  let after ← (scanner.report [⟨.unterminatedString, scanner.line⟩]).advance? text
  return (none, after)

/-- Reads the literal whose quote is at the place. -/
def readString? (scanner : OffsetScanner) : Option (Option String × OffsetScanner) :=
  if scanner.unclosedFrom.any (· < scanner.position) then scanner.passQuote? text
  else do
    match ← search? text (scanner.position + 1) [] [] with
    | .unclosed => scanner.remember.passQuote? text
    | .closed stop value bad =>
      let problems ← reportBad? text scanner.line scanner.position bad
      let after ← (scanner.report problems).advanceTo? text stop
      return (if bad = [] then some (String.ofList value) else none, after)

variable {text}

theorem reportBad?_eq {pieces : List Literal.Piece} {front between after : List Char}
    (h : text.toList = front ++ (between ++ (Literal.inner pieces ++ after))) (line : Nat) :
    reportBad? text line (byteLength front)
        (badOffsets (byteLength front + byteLength between) pieces) =
      some ((Literal.badEscapes (line + lineFeeds between) pieces).map
        fun bad => ⟨.invalidEscape bad.1, bad.2⟩) := by
  induction pieces generalizing front between line with
  | nil => rfl
  | cons piece pieces ih =>
    by_cases hvalid : piece.isValid = true
    · have hnext : text.toList =
          front ++ ((between ++ piece.text) ++ (Literal.inner pieces ++ after)) := by
        simpa using h
      have hmore := ih hnext line
      simp only [byteLength_append, lineFeeds_append, ← Nat.add_assoc] at hmore
      simp only [badOffsets, Literal.badEscapes, if_pos hvalid]
      exact hmore
    · have hcut : cut? text (byteLength front) (byteLength front + byteLength between) =
          some between := cut?_eq_some_iff.mpr ⟨front, _, h, rfl, rfl⟩
      have hnext : text.toList =
          (front ++ between) ++ (piece.text ++ (Literal.inner pieces ++ after)) := by
        simpa using h
      have hmore := ih hnext (line + lineFeeds between)
      rw [byteLength_append] at hmore
      simp only [badOffsets, Literal.badEscapes, if_neg hvalid, reportBad?, hcut]
      simp [hmore]

theorem passQuote?_eq {tail : List Char} (h : scanner.rest? text = some ('\'' :: tail)) :
    scanner.passQuote? text =
      some (none, (scanner.report [⟨.unterminatedString, scanner.line⟩]).past ['\'']) := by
  simp [passQuote?, advance?, h]

theorem badOffsets_eq_nil_iff {offset : Nat} {pieces : List Literal.Piece} :
    badOffsets offset pieces = [] ↔ pieces.all Literal.Piece.isValid = true := by
  induction pieces generalizing offset with
  | nil => simp [badOffsets]
  | cons piece pieces ih => by_cases h : piece.isValid = true <;> simp [badOffsets, h, ih]

theorem properChars_of_valid {pieces : List Literal.Piece}
    (h : pieces.all Literal.Piece.isValid = true) :
    properChars pieces = pieces.map Literal.Piece.char := by
  induction pieces with
  | nil => rfl
  | cons piece pieces ih =>
    obtain ⟨hvalid, hmore⟩ := Bool.and_eq_true_iff.mp h
    have hchars : properChars (piece :: pieces) = piece.char :: properChars pieces := by
      simp [properChars, hvalid]
    rw [hchars, ih hmore, List.map_cons]

theorem value?_eq (offset : Nat) (pieces : List Literal.Piece) :
    (if badOffsets offset pieces = [] then some (String.ofList (properChars pieces)) else none) =
      Literal.value? pieces := by
  unfold Literal.value?
  by_cases h : pieces.all Literal.Piece.isValid = true
  · rw [if_pos (badOffsets_eq_nil_iff.mpr h), if_pos h, properChars_of_valid h]
  · rw [if_neg (mt badOffsets_eq_nil_iff.mp h), if_neg h]

/-- Behind a quote the search finds the pieces of its literal. -/
theorem search?_tail {tail : List Char} (h : scanner.rest? text = some ('\'' :: tail)) :
    search? text (scanner.position + 1) [] [] =
      some (.ofBody (scanner.position + 1) [] [] (Literal.body? tail)) :=
  search?_eq (cut?_rest_append ['\''] h)

/-- A literal at the place is passed as a whole, from its first quote to its last. -/
theorem readString?_literal {tail : List Char} {pieces : List Literal.Piece}
    (h : scanner.rest? text = some ('\'' :: tail))
    (hopen : scanner.unclosedFrom.any (· < scanner.position) = false)
    (hbody : Literal.body? tail = some pieces) :
    scanner.readString? text = some (Literal.value? pieces,
      (scanner.report ((Literal.badEscapes scanner.line pieces).map
        fun bad => ⟨.invalidEscape bad.1, bad.2⟩)).past (Literal.text pieces)) := by
  have hsearch : search? text (scanner.position + 1) [] [] =
      some (.ofBody (scanner.position + 1) [] [] (some pieces)) := by
    rw [search?_tail h, hbody]
  obtain ⟨-, after, rfl⟩ := Literal.eq_inner_of_body? hbody
  have hreport : reportBad? text scanner.line scanner.position
      (badOffsets (scanner.position + 1) pieces) =
        some ((Literal.badEscapes scanner.line pieces).map
          fun bad => ⟨.invalidEscape bad.1, bad.2⟩) := by
    obtain ⟨before, htext, hposition⟩ := cut?_rest_iff.mp h
    have hquote : text.toList =
        before ++ (['\''] ++ (Literal.inner pieces ++ '\'' :: after)) := htext
    rw [hposition]
    exact reportBad?_eq hquote scanner.line
  have hstop : scanner.position + 1 + byteLength (Literal.inner pieces) + 1 =
      scanner.position + byteLength (Literal.text pieces) :=
    Found.stop_ofBody scanner.position pieces
  generalize (Literal.badEscapes scanner.line pieces).map
    (fun bad => (⟨.invalidEscape bad.1, bad.2⟩ : Diagnostic)) = problems at hreport
  have hrest : (scanner.report problems).rest? text = some (Literal.text pieces ++ after) := by
    rw [rest?_report, h]
    simp [Literal.text]
  have hpass := advanceTo?_eq hrest
  rw [position_report] at hpass
  unfold readString?
  rw [if_neg (by simp [hopen]), hsearch]
  simp only [Found.ofBody, List.nil_append, Option.bind_eq_bind, Option.bind_some, hreport, hstop,
    hpass, value?_eq]
  rfl

/-- A quote with no closing quote is passed alone, and remembered. -/
theorem readString?_unclosed {tail : List Char} (h : scanner.rest? text = some ('\'' :: tail))
    (hopen : scanner.unclosedFrom.any (· < scanner.position) = false)
    (hbody : Literal.body? tail = none) :
    scanner.readString? text = some (none,
      (scanner.remember.report [⟨.unterminatedString, scanner.line⟩]).past ['\'']) := by
  have hsearch : search? text (scanner.position + 1) [] [] = some .unclosed := by
    rw [search?_tail h, hbody]
    rfl
  have hquote : scanner.remember.rest? text = some ('\'' :: tail) := h
  unfold readString?
  rw [if_neg (by simp [hopen]), hsearch]
  exact passQuote?_eq hquote

/-- Where an earlier quote is remembered, the quote at the place is passed alone. -/
theorem readString?_remembered {tail : List Char} (h : scanner.rest? text = some ('\'' :: tail))
    (hopen : scanner.unclosedFrom.any (· < scanner.position) = true) :
    scanner.readString? text = some (none,
      (scanner.report [⟨.unterminatedString, scanner.line⟩]).past ['\'']) := by
  unfold readString?
  rw [if_pos hopen]
  exact passQuote?_eq h

/-- Reading stops exactly where the search found the end, if what is remembered of an
earlier quote holds for this one. -/
theorem readString?_stop {tail : List Char} (h : scanner.rest? text = some ('\'' :: tail))
    (hmemory : scanner.unclosedFrom.any (· < scanner.position) = true →
      Literal.body? tail = none) :
    ∃ found value? after, search? text (scanner.position + 1) [] [] = some found ∧
      scanner.readString? text = some (value?, after) ∧
      after.position = found.stop scanner.position := by
  cases hbody : Literal.body? tail with
  | some pieces =>
    have hopen : scanner.unclosedFrom.any (· < scanner.position) = false := by
      rw [← Bool.not_eq_true]
      intro hany
      simp [hmemory hany] at hbody
    refine ⟨_, _, _, search?_tail h, readString?_literal h hopen hbody, ?_⟩
    rw [hbody, Found.stop_ofBody]
    rfl
  | none =>
    cases hopen : scanner.unclosedFrom.any (· < scanner.position) with
    | true =>
      refine ⟨_, _, _, search?_tail h, readString?_remembered h hopen, ?_⟩
      rw [hbody]
      rfl
    | false =>
      refine ⟨_, _, _, search?_tail h, readString?_unclosed h hopen hbody, ?_⟩
      rw [hbody]
      rfl

variable (text)

/-! ## Tokens -/

/-- What stands at the place, where the next character is `c`: the kind of its token, or
none if it has only problems. -/
def scan? (c : Char) (scanner : OffsetScanner) : Option (Option Token.Kind × OffsetScanner) :=
  match Mark.ofChar? c with
  | some m => do
    let after ← scanner.advance? text
    return (some (.mark m), after)
  | none =>
    if c = '\'' then do
      let (value?, after) ← scanner.readString? text
      return (value?.map .string, after)
    else if isWordStart c then do
      let (letters, after) ← scanner.readWhile? text isWordPart
      return (some (.ofWord (String.ofList letters)), after)
    else if c.isDigit then do
      let (run, after) ← scanner.readWhile? text Char.isDigit
      match numberOf? run with
      | some n => return (some (.number n), after)
      | none =>
        return (none, after.report [⟨.numberOutOfRange (String.ofList run), scanner.line⟩])
    else do
      let after ← (scanner.report [⟨.illegalCharacter c, scanner.line⟩]).advance? text
      return (none, after)

/-- One round on the way to the next token: over the blanks, and over what stands behind
them. It gives the token, or none if there were only problems. -/
def round? (scanner : OffsetScanner) : Option (Option Token × OffsetScanner) := do
  let opening ← scanner.skipWhile? text isBlank
  match ← opening.rest? text with
  | [] => return (some ⟨.endOfInput, opening.line⟩, opening)
  | c :: _ =>
    let (kind?, after) ← scan? text c opening
    return (kind?.map (⟨·, opening.line⟩), after)

variable {text}

theorem position_past_lt {taken : List Char} (h : taken ≠ []) :
    scanner.position < (scanner.past taken).position :=
  Nat.lt_add_of_pos_right (byteLength_pos h)

theorem readString?_lt {tail : List Char} {value? : Option String} {after : OffsetScanner}
    (h : scanner.rest? text = some ('\'' :: tail))
    (hread : scanner.readString? text = some (value?, after)) :
    scanner.position < after.position := by
  cases hopen : scanner.unclosedFrom.any (· < scanner.position) with
  | true =>
    rw [readString?_remembered h hopen] at hread
    cases hread
    exact position_past_lt (List.cons_ne_nil _ _)
  | false =>
    cases hbody : Literal.body? tail with
    | none =>
      rw [readString?_unclosed h hopen hbody] at hread
      cases hread
      exact position_past_lt (List.cons_ne_nil _ _)
    | some pieces =>
      rw [readString?_literal h hopen hbody] at hread
      cases hread
      exact position_past_lt (List.cons_ne_nil _ _)

theorem mark?_of_class {c : Char} (h : isWordStart c = true ∨ c.isDigit = true ∨ c = '\'') :
    Mark.ofChar? c = none := by
  rw [Option.eq_none_iff_forall_ne_some]
  intro m hm
  obtain ⟨-, -, hword, hdigit, hquote⟩ := classes_of_mark m
  rw [← (Mark.ofChar?_eq_some_iff c m).mp hm] at hword hdigit hquote
  simp [hword, hdigit, hquote] at h

/-- Where no blank and no quote stands, the scanner takes the first segment. -/
theorem scan?_segment {c : Char} {cs : List Char} {segment : Segment}
    (h : scanner.rest? text = some (c :: cs)) (hfirst : Segment.first? (c :: cs) = some segment)
    (hblank : isBlank c = false) (hquote : c ≠ '\'') :
    scan? text c scanner = some (segment.kind?,
      (scanner.report (segment.diagnostics scanner.line)).past segment.text) := by
  rw [Segment.first?, if_neg (by simp [hblank])] at hfirst
  unfold scan?
  by_cases hword : isWordStart c = true
  · rw [if_pos hword] at hfirst
    cases hfirst
    have hpart := isWordPart_of_isWordStart hword
    rw [mark?_of_class (.inl hword)]
    simp [hquote, hword, readWhile?_eq h, hpart, Segment.kind?, Segment.diagnostics, Segment.text]
  · rw [if_neg hword] at hfirst
    by_cases hdigit : c.isDigit = true
    · rw [if_pos hdigit] at hfirst
      cases hfirst
      rw [mark?_of_class (.inr (.inl hdigit))]
      cases hnumber : numberOf? (c :: cs.takeWhile Char.isDigit) with
      | none =>
        simp [hquote, hword, hdigit, readWhile?_eq h, hnumber, Segment.kind?, Segment.diagnostics,
          Segment.text]
        rfl
      | some n =>
        simp [hquote, hword, hdigit, readWhile?_eq h, hnumber, Segment.kind?, Segment.diagnostics,
          Segment.text]
    · rw [if_neg hdigit, if_neg hquote] at hfirst
      cases hmark : Mark.ofChar? c with
      | some m =>
        rw [hmark] at hfirst
        cases hfirst
        have hchar := (Mark.ofChar?_eq_some_iff c m).mp hmark
        simp [advance?, h, Segment.kind?, Segment.diagnostics, Segment.text, hchar]
      | none =>
        rw [hmark] at hfirst
        cases hfirst
        simp [hquote, hword, hdigit, advance?, h, Segment.kind?, Segment.diagnostics,
          Segment.text]

/-- Whatever stands at the place, the scanner moves on over it. -/
theorem scan?_lt {c : Char} {cs : List Char} {kind? : Option Token.Kind} {after : OffsetScanner}
    (h : scanner.rest? text = some (c :: cs)) (hblank : isBlank c = false)
    (hscan : scan? text c scanner = some (kind?, after)) : scanner.position < after.position := by
  by_cases hquote : c = '\''
  · subst hquote
    rw [scan?, mark?_of_class (.inr (.inr rfl))] at hscan
    obtain ⟨⟨value?, behind⟩, hread, hafter⟩ := Option.bind_eq_some_iff.mp hscan
    cases hafter
    exact readString?_lt h hread
  · cases hfirst : Segment.first? (c :: cs) with
    | none => cases (Segment.first?_eq_none_iff _).mp hfirst
    | some segment =>
      rw [scan?_segment h hfirst hblank hquote] at hscan
      cases hscan
      exact position_past_lt (Segment.text_first? hfirst).1

/-- A round from a place between two characters. -/
theorem round?_eq {rest : List Char} (h : scanner.rest? text = some rest) :
    scanner.round? text =
      match rest.dropWhile isBlank with
      | [] => some (some ⟨.endOfInput, (scanner.past (rest.takeWhile isBlank)).line⟩,
          scanner.past (rest.takeWhile isBlank))
      | c :: _ => (scan? text c (scanner.past (rest.takeWhile isBlank))).map fun found =>
          (found.1.map (⟨·, (scanner.past (rest.takeWhile isBlank)).line⟩), found.2) := by
  have hsplit : scanner.rest? text = some (rest.takeWhile isBlank ++ rest.dropWhile isBlank) := by
    rw [List.takeWhile_append_dropWhile, h]
  have hopening := rest?_past _ hsplit
  unfold round?
  rw [skipWhile?_eq h]
  simp only [Option.bind_eq_bind, Option.bind_some, hopening]
  cases rest.dropWhile isBlank with
  | nil => rfl
  | cons c cs =>
    simp only [Option.map_eq_bind]
    rfl

/-- A round that does not come to the end of the query moves on. -/
theorem round?_lt {found? : Option Token} {after : OffsetScanner}
    (h : scanner.round? text = some (found?, after)) :
    (∃ token, found? = some token ∧ token.isEnd = true) ∨
      scanner.position < after.position ∧ scanner.position < text.utf8ByteSize := by
  cases hrest : scanner.rest? text with
  | none =>
    have hskip : scanner.skipWhile? text isBlank = none := by
      rw [skipWhile?]
      split <;> simp_all
    simp [round?, hskip] at h
  | some rest =>
    have hsplit : scanner.rest? text =
        some (rest.takeWhile isBlank ++ rest.dropWhile isBlank) := by
      rw [List.takeWhile_append_dropWhile, hrest]
    have hopening := rest?_past _ hsplit
    have hblank := Segment.head_dropWhile isBlank rest
    rw [round?_eq hrest] at h
    cases hdrop : rest.dropWhile isBlank with
    | nil =>
      rw [hdrop] at h
      cases h
      exact .inl ⟨_, rfl, rfl⟩
    | cons c cs =>
      rw [hdrop] at h hopening hblank
      obtain ⟨⟨kind?, behind⟩, hscan, hafter⟩ := Option.map_eq_some_iff.mp h
      cases hafter
      have hmoved := scan?_lt hopening (hblank c rfl) hscan
      have hsize := utf8ByteSize_of_rest hopening
      have hpos := byteLength_pos (List.cons_ne_nil c cs)
      refine .inr ⟨Nat.lt_of_le_of_lt (Nat.le_add_right ..) hmoved, ?_⟩
      simp only [past] at hsize
      omega

variable (text)

/-- The next token: round after round until one gives a token. -/
def nextToken? (scanner : OffsetScanner) : Option (Token × OffsetScanner) :=
  match _ : scanner.round? text with
  | none => none
  | some (some token, after) => some (token, after)
  | some (none, after) => after.nextToken?
termination_by text.utf8ByteSize - scanner.position
decreasing_by
  have := round?_lt (by assumption)
  simp at this
  omega

variable {text}

theorem nextToken?_lt {token : Token} {after : OffsetScanner}
    (h : scanner.nextToken? text = some (token, after)) (hend : token.isEnd = false) :
    scanner.position < after.position ∧ scanner.position < text.utf8ByteSize := by
  fun_induction nextToken? text scanner with
  | case1 => cases h
  | case2 scanner found behind hround =>
    cases h
    simpa [hend] using round?_lt hround
  | case3 scanner behind hround ih =>
    have hmoved := round?_lt hround
    simp only [reduceCtorEq, false_and, exists_false, false_or] at hmoved
    exact ⟨Nat.lt_trans hmoved.1 (ih h).1, hmoved.2⟩

variable (text)

/-- The next token of the stream, which stops after the end of the query. -/
def next? (scanner : OffsetScanner) : Option (Option Token × OffsetScanner) :=
  if scanner.finished then some (none, scanner)
  else do
    let (token, after) ← scanner.nextToken? text
    return (some token, { after with finished := token.isEnd })

/-- All tokens that the stream still has, and the scanner at its end. -/
def drain? (scanner : OffsetScanner) : Option (List Token × OffsetScanner) :=
  if scanner.finished then some ([], scanner)
  else
    match _ : scanner.nextToken? text with
    | none => none
    | some (token, after) =>
      if _ : token.isEnd then some ([token], { after with finished := true })
      else (after.drain?).map fun later => (token :: later.1, later.2)
termination_by text.utf8ByteSize - scanner.position
decreasing_by
  have := nextToken?_lt (by assumption) (by simp_all)
  omega

/-- The answer to one call, and the scanner after it. -/
def ask? (scanner : OffsetScanner) : Call → Option (Answer × OffsetScanner)
  | .nextToken => do
    let (token, after) ← scanner.nextToken? text
    return (.token token, after)
  | .next => do
    let (token?, after) ← scanner.next? text
    return (.streamed token?, after)
  | .rest => do
    let (tokens, after) ← scanner.drain? text
    return (.tokens tokens, after)
  | .diagnostics => some (.problems scanner.diagnostics.toList, scanner)
  | .takeDiagnostics =>
    some (.problems scanner.diagnostics.toList, { scanner with diagnostics := #[] })

/-- Makes calls one after another, each where the one before it ended. -/
def session? (scanner : OffsetScanner) : List Call → Option (List Answer × OffsetScanner)
  | [] => some ([], scanner)
  | call :: calls => do
    let (answer, after) ← scanner.ask? text call
    let (answers, last) ← after.session? calls
    return (answer :: answers, last)

end OffsetScanner

end SelectQuery
