-- The scanner by byte offsets does what the scanner does: call by call it gives the
-- same answers, from the same places. So none of its cuts fails and none of its loops
-- goes on for ever, whatever the text and however it is called.
import SelectQuery.Proofs.Scan.Offsets
import SelectQuery.Proofs.Session.Literals
import Mathlib.Logic.Relation

namespace SelectQuery

/-! ## Places -/

/-- The scanner with no more than the offset of its place. -/
def Scanner.offsets (scanner : Scanner) : OffsetScanner :=
  { position := scanner.cursor.offset
    line := scanner.cursor.line
    diagnostics := scanner.diagnostics
    finished := scanner.finished
    unclosedFrom := scanner.unclosedFrom }

namespace Scanner

variable {scanner : Scanner} {text : String}

theorem SoundIn.rest?_offsets (h : SoundIn text.toList scanner) :
    scanner.offsets.rest? text = some scanner.cursor.rest := by
  obtain ⟨before, hsound⟩ := h
  exact cut?_rest_iff.mpr ⟨before, hsound.stands.text_eq, hsound.stands.offset_eq⟩

/-- Passing anything but an open quote leaves what is remembered as it is. -/
theorem offsets_pass {segment : Segment} (h : segment ≠ .openQuote) :
    (scanner.pass segment).offsets =
      (scanner.offsets.report (segment.diagnostics scanner.cursor.line)).past segment.text := by
  cases segment with
  | openQuote => exact absurd rfl h
  | _ => rfl

theorem Sound.knowsUnclosed {before : List Char} (h : scanner.Sound text.toList before)
    {offset : Nat} (hoffset : scanner.unclosedFrom = some offset) :
    scanner.knowsUnclosed = true := by
  obtain ⟨_, _, _, _, hlt, _⟩ := h.unclosed offset hoffset
  simp [Scanner.knowsUnclosed, hoffset, hlt]

/-- A quote: the literal that it opens, or the quote alone. -/
theorem SoundIn.readString? (h : SoundIn text.toList scanner) {tail : List Char}
    (hrest : scanner.cursor.rest = '\'' :: tail) {segment : Segment}
    (hsegment : scanner.segment? = some segment) :
    ∃ value?, scanner.offsets.readString? text = some (value?, (scanner.pass segment).offsets) ∧
      segment.kind? = value?.map .string := by
  have hplace : scanner.offsets.rest? text = some ('\'' :: tail) := by
    rw [h.rest?_offsets, hrest]
  obtain ⟨before, hsound⟩ := h
  rw [hsound.segment?_eq, hrest, Segment.first?_quote] at hsegment
  cases hbody : Literal.body? tail with
  | some pieces =>
    rw [hbody] at hsegment
    cases hsegment
    have hopen : scanner.knowsUnclosed = false := by
      rw [← Bool.not_eq_true]
      intro hknows
      rw [hsound.body?_eq_none hknows hrest] at hbody
      cases hbody
    refine ⟨Literal.value? pieces, ?_, rfl⟩
    rw [offsets_pass (by simp)]
    exact OffsetScanner.readString?_literal hplace hopen hbody
  | none =>
    rw [hbody] at hsegment
    cases hsegment
    refine ⟨none, ?_, rfl⟩
    cases hmemory : scanner.unclosedFrom with
    | none =>
      have hopen : scanner.knowsUnclosed = false := by simp [Scanner.knowsUnclosed, hmemory]
      rw [OffsetScanner.readString?_unclosed hplace hopen hbody]
      simp [offsets, Scanner.pass, hmemory, OffsetScanner.report, OffsetScanner.remember,
        OffsetScanner.past, Cursor.past, Segment.text, Segment.diagnostics]
    | some offset =>
      rw [OffsetScanner.readString?_remembered hplace (hsound.knowsUnclosed hmemory)]
      simp [offsets, Scanner.pass, hmemory, OffsetScanner.report, OffsetScanner.past,
        Cursor.past, Segment.text, Segment.diagnostics]

/-- What stands at the place of a scanner that is at no blank is its segment. -/
theorem SoundIn.scan? (h : SoundIn text.toList scanner) {c : Char} {cs : List Char}
    (hrest : scanner.cursor.rest = c :: cs) (hblank : isBlank c = false) {segment : Segment}
    (hsegment : scanner.segment? = some segment) :
    OffsetScanner.scan? text c scanner.offsets =
      some (segment.kind?, (scanner.pass segment).offsets) := by
  by_cases hquote : c = '\''
  · subst hquote
    obtain ⟨value?, hread, hkind⟩ := h.readString? hrest hsegment
    rw [OffsetScanner.scan?, OffsetScanner.mark?_of_class (.inr (.inr rfl))]
    simp [hread, hkind]
  · have hplace : scanner.offsets.rest? text = some (c :: cs) := by
      rw [h.rest?_offsets, hrest]
    obtain ⟨before, hsound⟩ := h
    rw [hsound.segment?_eq, hrest] at hsegment
    have hne : segment ≠ .openQuote := by
      rintro rfl
      obtain ⟨-, rest, htext⟩ := Segment.text_first? hsegment
      exact hquote (List.cons.inj htext).1
    rw [OffsetScanner.scan?_segment hplace hsegment hblank hquote, offsets_pass hne]
    rfl

/-! ## Rounds -/

/-- The scanner behind the blanks at its place. -/
def opening (scanner : Scanner) : Scanner :=
  match scanner.segment? with
  | some (.blank run) => scanner.pass (.blank run)
  | _ => scanner

theorem opening_cases (scanner : Scanner) :
    (∃ run, scanner.segment? = some (.blank run) ∧ scanner.opening = scanner.pass (.blank run)) ∨
      (∀ run, scanner.segment? ≠ some (.blank run)) ∧ scanner.opening = scanner := by
  unfold opening
  split
  · next run hrun => exact .inl ⟨run, hrun, rfl⟩
  · next hne => exact .inr ⟨hne, rfl⟩

theorem SoundIn.opening (h : SoundIn text.toList scanner) :
    SoundIn text.toList scanner.opening := by
  rcases scanner.opening_cases with ⟨run, hrun, heq⟩ | ⟨-, heq⟩
  · rw [heq]
    exact h.pass hrun
  · rwa [heq]

/-- The blanks at the place are the longest run of them, which may be none. -/
theorem SoundIn.blanks (h : SoundIn text.toList scanner) :
    scanner.offsets.past (scanner.cursor.rest.takeWhile isBlank) = scanner.opening.offsets ∧
      ∀ c ∈ scanner.opening.cursor.rest.head?, isBlank c = false := by
  obtain ⟨before, hsound⟩ := h
  rcases scanner.opening_cases with ⟨run, hrun, heq⟩ | ⟨hne, heq⟩
  · rw [hsound.segment?_eq] at hrun
    obtain ⟨rest, hrest, -, hblank, hhead⟩ := Segment.fitsBefore_of_first? hrun
    have hrest' : scanner.cursor.rest = run ++ rest := hrest
    rw [heq]
    constructor
    · rw [hrest', Segment.takeWhile_run hblank hhead, offsets_pass (by simp)]
      simp [Segment.diagnostics, Segment.text]
    · simpa [Scanner.pass, Cursor.past, Segment.text, hrest'] using hhead
  · have hhead : ∀ c ∈ scanner.cursor.rest.head?, isBlank c = false := by
      intro c hc
      obtain ⟨cs, hrest⟩ := List.head?_eq_some_iff.mp hc
      rw [← Bool.not_eq_true]
      intro hblank
      apply hne (c :: cs.takeWhile isBlank)
      rw [hsound.segment?_eq, hrest, Segment.first?, if_pos hblank]
    have hnone : scanner.cursor.rest.takeWhile isBlank = [] := by
      cases hrest : scanner.cursor.rest with
      | nil => rfl
      | cons c cs => simp [hhead c (by simp [hrest])]
    rw [heq, hnone]
    exact ⟨by simp [OffsetScanner.past], hhead⟩

theorem SoundIn.skipBlanks? (h : SoundIn text.toList scanner) :
    scanner.offsets.skipWhile? text isBlank = some scanner.opening.offsets := by
  rw [OffsetScanner.skipWhile?_eq h.rest?_offsets, h.blanks.1]

/-- A round is the segment behind the blanks. -/
theorem SoundIn.round? (h : SoundIn text.toList scanner) :
    scanner.offsets.round? text =
      match scanner.opening.segment? with
      | none => some (some ⟨.endOfInput, scanner.opening.cursor.line⟩, scanner.opening.offsets)
      | some segment => some (segment.kind?.map (⟨·, scanner.opening.cursor.line⟩),
          (scanner.opening.pass segment).offsets) := by
  have hplace := h.opening.rest?_offsets
  unfold OffsetScanner.round?
  simp only [h.skipBlanks?, hplace, Option.bind_eq_bind, Option.bind_some]
  cases hsegment : scanner.opening.segment? with
  | none =>
    rw [(segment?_eq_none_iff _).mp hsegment]
    rfl
  | some segment =>
    obtain ⟨c, cs, hrest⟩ : ∃ c cs, scanner.opening.cursor.rest = c :: cs := by
      apply List.exists_cons_of_ne_nil
      intro hnil
      rw [(segment?_eq_none_iff _).mpr hnil] at hsegment
      cases hsegment
    have hblank := h.blanks.2 c (by simp [hrest])
    rw [hrest]
    simp only [h.opening.scan? hrest hblank hsegment]
    rfl

theorem SoundIn.opening_opening (h : SoundIn text.toList scanner) :
    scanner.opening.opening = scanner.opening := by
  rcases scanner.opening.opening_cases with ⟨run, hrun, -⟩ | ⟨-, heq⟩
  · exfalso
    obtain ⟨before, hsound⟩ := h.opening
    rw [hsound.segment?_eq] at hrun
    obtain ⟨rest, hrest, hne, hblank, -⟩ := Segment.fitsBefore_of_first? hrun
    obtain ⟨c, cs, rfl⟩ := List.exists_cons_of_ne_nil hne
    have hhead := h.blanks.2 c (by simp [hrest, Segment.text])
    rw [hblank c List.mem_cons_self] at hhead
    cases hhead
  · exact heq

end Scanner

/-! ## Calls -/

theorem OffsetScanner.nextToken?_eq (text : String) (scanner : OffsetScanner) :
    scanner.nextToken? text =
      match scanner.round? text with
      | none => none
      | some (some token, after) => some (token, after)
      | some (none, after) => after.nextToken? text := by
  rw [nextToken?]
  split <;> simp_all

namespace Scanner

variable {scanner : Scanner} {text : String}

/-- One token: the two scanners give the same one and stay at the same place. -/
theorem SoundIn.nextToken? (h : SoundIn text.toList scanner) :
    scanner.offsets.nextToken? text = some (scanner.nextToken.1, scanner.nextToken.2.offsets) := by
  -- The induction goes over the segments that give no token.
  fun_induction Scanner.nextToken scanner with
  | case1 scanner hnone =>
    have hopening : scanner.opening = scanner := by simp [Scanner.opening, hnone]
    rw [OffsetScanner.nextToken?_eq, h.round?, hopening, hnone]
  | case2 scanner segment hsome kind hkind =>
    have hopening : scanner.opening = scanner := by
      unfold Scanner.opening
      cases segment with
      | blank run => cases hkind
      | _ => simp [hsome]
    rw [OffsetScanner.nextToken?_eq, h.round?, hopening, hsome]
    simp [hkind]
  | case3 scanner segment hsome hkind ih =>
    rw [← ih (h.pass hsome), OffsetScanner.nextToken?_eq, h.round?]
    rcases scanner.opening_cases with ⟨run, hrun, heq⟩ | ⟨hne, heq⟩
    · -- A round starts with the blanks, so it is the round from behind them.
      rw [hsome] at hrun
      cases hrun
      rw [OffsetScanner.nextToken?_eq text (scanner.pass _).offsets, (h.pass hsome).round?, ← heq,
        h.opening_opening]
    · rw [heq, hsome]
      simp [hkind]

theorem SoundIn.next?_offsets (h : SoundIn text.toList scanner) :
    scanner.offsets.next? text = some (scanner.next?.1, scanner.next?.2.offsets) := by
  unfold OffsetScanner.next? Scanner.next?
  by_cases hfinished : scanner.finished = true
  · have hoffsets : scanner.offsets.finished = true := hfinished
    simp only [hfinished, hoffsets, if_true]
  · have hoffsets : ¬ scanner.offsets.finished = true := hfinished
    simp only [hfinished, hoffsets, h.nextToken?]
    rfl

theorem SoundIn.drain? (h : SoundIn text.toList scanner) :
    scanner.offsets.drain? text = some (scanner.drain.1, scanner.drain.2.offsets) := by
  fun_induction Scanner.drain scanner with
  | case1 scanner hfinished =>
    have hoffsets : scanner.offsets.finished = true := hfinished
    rw [OffsetScanner.drain?, if_pos hoffsets]
  | case2 scanner hfinished step hend =>
    have hoffsets : ¬ scanner.offsets.finished = true := hfinished
    rw [OffsetScanner.drain?, if_neg hoffsets]
    split
    · simp_all [h.nextToken?]
    · next token after hnext =>
      rw [h.nextToken?] at hnext
      cases hnext
      rw [dif_pos hend]
      rfl
  | case3 scanner hfinished step hend tokens last hdrain ih =>
    have hoffsets : ¬ scanner.offsets.finished = true := hfinished
    have hmore := ih h.nextToken.2
    rw [hdrain] at hmore
    rw [OffsetScanner.drain?, if_neg hoffsets]
    split
    · simp_all [h.nextToken?]
    · next token after hnext =>
      rw [h.nextToken?] at hnext
      cases hnext
      rw [dif_neg hend, hmore]
      rfl

/-- One call: the two scanners give the same answer and stay at the same place. -/
theorem SoundIn.ask? (h : SoundIn text.toList scanner) (call : Call) :
    scanner.offsets.ask? text call = some ((scanner.ask call).1, (scanner.ask call).2.offsets) := by
  cases call with
  | nextToken => simp [OffsetScanner.ask?, h.nextToken?, ask]
  | next => simp [OffsetScanner.ask?, h.next?_offsets, ask]
  | rest => simp [OffsetScanner.ask?, h.drain?, ask]
  | diagnostics => rfl
  | takeDiagnostics => rfl

theorem SoundIn.ask (h : SoundIn text.toList scanner) (call : Call) :
    SoundIn text.toList (scanner.ask call).2 :=
  (Alike.ask ⟨h, rfl⟩ call).2.1

theorem SoundIn.session? (h : SoundIn text.toList scanner) (calls : List Call) :
    scanner.offsets.session? text calls =
      some ((session Scanner.ask scanner calls).1,
        (session Scanner.ask scanner calls).2.offsets) := by
  induction calls generalizing scanner with
  | nil => rfl
  | cons call calls ih =>
    simp [OffsetScanner.session?, h.ask?, ih (h.ask call), session]

end Scanner

/-! ## Scanners in order -/

/-- A scanner by offsets is in order: its place lies between two characters, its line is
that of the place, and a quote that it holds for unclosed stands before the place, where
a search from it comes to the end of the text. -/
structure OffsetScanner.InOrder (text : String) (scanner : OffsetScanner) : Prop where
  boundary : IsBoundary text scanner.position
  within : scanner.position ≤ text.utf8ByteSize
  line_eq : ∃ before, cut? text 0 scanner.position = some before ∧
    scanner.line = 1 + lineFeeds before
  unclosed : ∀ offset, scanner.unclosedFrom = some offset → offset < scanner.position ∧
    (∃ tail, cut? text offset text.utf8ByteSize = some ('\'' :: tail)) ∧
    search? text (offset + 1) [] [] = some .unclosed

/-- A round that gives no token. -/
def OffsetScanner.PassesRound (text : String) (scanner after : OffsetScanner) : Prop :=
  scanner.round? text = some (none, after)

namespace Scanner

variable {scanner : Scanner} {text : String}

theorem SoundIn.inOrder (h : SoundIn text.toList scanner) : scanner.offsets.InOrder text := by
  have hplace := h.rest?_offsets
  obtain ⟨before, hsound⟩ := h
  have htext := hsound.stands.text_eq
  refine ⟨isBoundary_iff.mpr ⟨before, _, htext, hsound.stands.offset_eq⟩, ?_, ?_, ?_⟩
  · have := utf8ByteSize_of_rest hplace
    omega
  · refine ⟨before, cut?_eq_some_iff.mpr ⟨[], _, htext, rfl, ?_⟩, hsound.stands.line_eq⟩
    rw [byteLength_nil, Nat.zero_add]
    exact hsound.stands.offset_eq
  · intro offset hoffset
    obtain ⟨front, back, hfront, hbytes, hlt, hbody⟩ := hsound.unclosed offset hoffset
    have hquote : cut? text offset text.utf8ByteSize = some ('\'' :: back) :=
      cut?_rest_iff.mpr ⟨front, hfront, hbytes.symm⟩
    refine ⟨hlt, ⟨back, hquote⟩, ?_⟩
    have hback : cut? text (offset + 1) text.utf8ByteSize = some back :=
      cut?_rest_append ['\''] hquote
    rw [OffsetScanner.search?_eq hback, hbody]
    rfl

/-- The rounds on the way to a token lead from a place of a scanner to others. -/
theorem SoundIn.passesRounds (h : SoundIn text.toList scanner) {inner : OffsetScanner}
    (hrounds : Relation.ReflTransGen (OffsetScanner.PassesRound text) scanner.offsets inner) :
    ∃ place : Scanner, SoundIn text.toList place ∧ inner = place.offsets := by
  induction hrounds with
  | refl => exact ⟨scanner, h, rfl⟩
  | tail _ hround ih =>
    obtain ⟨before, hbefore, rfl⟩ := ih
    unfold OffsetScanner.PassesRound at hround
    rw [hbefore.round?] at hround
    cases hsegment : before.opening.segment? with
    | none => simp [hsegment] at hround
    | some segment =>
      simp only [hsegment, Option.some.injEq, Prod.mk.injEq] at hround
      exact ⟨_, hbefore.opening.pass hsegment, hround.2.symm⟩

/-- A round leads from a place of a scanner to another, which lies further on if there
was no token. -/
theorem SoundIn.round?_inOrder (h : SoundIn text.toList scanner) :
    ∃ found? later, scanner.offsets.round? text = some (found?, later) ∧ later.InOrder text ∧
      (found? = none → scanner.offsets.position < later.position) := by
  have hround : ∃ found? later, scanner.offsets.round? text = some (found?, later) ∧
      later.InOrder text := by
    rw [h.round?]
    cases hsegment : scanner.opening.segment? with
    | none => exact ⟨_, _, rfl, h.opening.inOrder⟩
    | some segment => exact ⟨_, _, rfl, (h.opening.pass hsegment).inOrder⟩
  obtain ⟨found?, later, hround, horder⟩ := hround
  refine ⟨found?, later, hround, horder, ?_⟩
  rintro rfl
  simpa using (OffsetScanner.round?_lt hround).imp_right And.left

/-- Reading the string whose quote is at the place leads to another, which is where the
end of the string was found. -/
theorem SoundIn.readString?_inOrder (h : SoundIn text.toList scanner) {tail : List Char}
    (hrest : scanner.offsets.rest? text = some ('\'' :: tail)) :
    ∃ found value? after,
      OffsetScanner.search? text (scanner.offsets.position + 1) [] [] = some found ∧
      scanner.offsets.readString? text = some (value?, after) ∧
      after.position = found.stop scanner.offsets.position ∧ after.InOrder text := by
  have hchars : scanner.cursor.rest = '\'' :: tail := by
    rw [h.rest?_offsets] at hrest
    exact Option.some.inj hrest
  have hmemory : scanner.knowsUnclosed = true → Literal.body? tail = none := by
    intro hknows
    obtain ⟨before, hsound⟩ := h
    exact hsound.body?_eq_none hknows hchars
  obtain ⟨found, value?, after, hsearch, hread, hstop⟩ :=
    OffsetScanner.readString?_stop hrest hmemory
  refine ⟨found, value?, after, hsearch, hread, hstop, ?_⟩
  cases hsegment : scanner.segment? with
  | none => simp [(segment?_eq_none_iff scanner).mp hsegment] at hchars
  | some segment =>
    obtain ⟨other?, hother, -⟩ := h.readString? hchars hsegment
    rw [hread] at hother
    cases hother
    exact (h.pass hsegment).inOrder

end Scanner

/-! ## The law -/

/-- A scanner cuts its text only between two characters. A scanner by offsets gives no
answer if it has to cut anywhere else, or from one offset back to an earlier one, or
would go on for ever. Yet to any calls it gives the answers of the scanner. Wherever it
comes to in this way, and in each round on the way to its next token, it is in order. A
round without a token moves on, and a string is passed exactly up to the end that the
search for its closing quote has found. -/
theorem a_scanner_cuts_only_between_characters (text : String) (calls : List Call) :
    (∀ start stop, (cut? text start stop).isSome ↔
      start ≤ stop ∧ IsBoundary text start ∧ IsBoundary text stop) ∧
    OffsetScanner.start.session? text calls =
      some (Scanner.answers text calls, (Scanner.reached text calls).offsets) ∧
    ∀ inner, Relation.ReflTransGen (OffsetScanner.PassesRound text)
        (Scanner.reached text calls).offsets inner →
      inner.InOrder text ∧
      (∃ found? later, inner.round? text = some (found?, later) ∧ later.InOrder text ∧
        (found? = none → inner.position < later.position)) ∧
      ∃ opening, inner.skipWhile? text isBlank = some opening ∧ opening.InOrder text ∧
        ∀ tail, opening.rest? text = some ('\'' :: tail) →
          ∃ found value? behind,
            OffsetScanner.search? text (opening.position + 1) [] [] = some found ∧
            opening.readString? text = some (value?, behind) ∧
            behind.position = found.stop opening.position ∧ behind.InOrder text := by
  have hstart : Scanner.SoundIn text.toList (Scanner.ofText text) :=
    ⟨[], Scanner.sound_ofText text⟩
  refine ⟨isSome_cut?_iff text, hstart.session? calls, ?_⟩
  intro inner hrounds
  obtain ⟨scanner, hsound, rfl⟩ := (Scanner.soundIn_reached text calls).passesRounds hrounds
  refine ⟨hsound.inOrder, hsound.round?_inOrder, _, hsound.skipBlanks?, hsound.opening.inOrder, ?_⟩
  intro tail hrest
  exact hsound.opening.readString?_inOrder hrest

end SelectQuery
