-- The laws of the scanner. In every state that it can reach, the scanner still
-- gives the items of the rest of its text. A quote that is known to stay open
-- does no harm: no quote after it can be closed.
import SelectQuery.Proofs.Scan.Items
import SelectQuery.Scan.Scanner

namespace SelectQuery

/-! ## Open quotes -/

/-- Where a literal is not closed, no quote inside it opens one that is. -/
theorem Literal.body?_after_quote {front rest : List Char}
    (h : body? (front ++ '\'' :: rest) = none) : body? rest = none := by
  generalize hcs : front ++ '\'' :: rest = cs at h
  fun_induction body? cs generalizing front with
  | case1 => simp at hcs
  | case2 => cases h
  | case3 =>
    rcases front with _ | ⟨a, _ | ⟨b, front⟩⟩ <;> simp at hcs
  | case4 c tail ih =>
    rw [Option.map_eq_none_iff] at h
    rcases front with _ | ⟨a, _ | ⟨b, front⟩⟩
    · simp at hcs
    · -- The quote is the one that the backslash takes.
      simp only [List.cons_append, List.nil_append, List.cons.injEq] at hcs
      rw [hcs.2.2]
      exact h
    · simp only [List.cons_append, List.cons.injEq] at hcs
      exact ih hcs.2.2 h
  | case5 c tail hquote _ _ ih =>
    rw [Option.map_eq_none_iff] at h
    rcases front with _ | ⟨a, front⟩
    · simp only [List.nil_append, List.cons.injEq] at hcs
      exact absurd hcs.1.symm hquote
    · simp only [List.cons_append, List.cons.injEq] at hcs
      exact ih hcs.2 h

namespace Scanner

/-! ## Scanners in good order -/

/-- A scanner is in good order at a place of a text: its cursor stands there,
and a quote that it holds for unclosed lies before the place and is unclosed. -/
structure Sound (scanner : Scanner) (text before : List Char) : Prop where
  stands : scanner.cursor.Stands text before
  unclosed : ∀ offset, scanner.unclosedFrom = some offset →
    ∃ front back, text = front ++ '\'' :: back ∧ byteLength front = offset ∧
      offset < scanner.cursor.offset ∧ Literal.body? back = none

theorem sound_ofText (text : String) : (ofText text).Sound text.toList [] where
  stands := Cursor.stands_start text
  unclosed := by
    intro offset h
    cases h

/-- No quote from the place on is closed once one before it is not. -/
theorem Sound.body?_eq_none {scanner : Scanner} {text before tail : List Char}
    (h : scanner.Sound text before) (hknows : scanner.knowsUnclosed = true)
    (hrest : scanner.cursor.rest = '\'' :: tail) : Literal.body? tail = none := by
  unfold knowsUnclosed at hknows
  obtain ⟨offset, hoffset⟩ : ∃ offset, scanner.unclosedFrom = some offset := by
    cases ho : scanner.unclosedFrom with
    | none => simp [ho] at hknows
    | some offset => exact ⟨offset, rfl⟩
  obtain ⟨front, back, htext, hbytes, hlt, hbody⟩ := h.unclosed offset hoffset
  rw [h.stands.offset_eq, ← hbytes] at hlt
  obtain ⟨middle, hbefore, hback⟩ :=
    prefix_of_byteLength_le (htext.symm.trans h.stands.text_eq) (Nat.le_of_lt hlt)
  -- The open quote is the first character of `middle`.
  cases middle with
  | nil => simp [hbefore] at hlt
  | cons c middle =>
    simp only [List.cons_append, List.cons.injEq] at hback
    rw [hback.2, hrest] at hbody
    exact Literal.body?_after_quote hbody

/-- A scanner in good order takes the first segment of the rest. -/
theorem Sound.segment?_eq {scanner : Scanner} {text before : List Char}
    (h : scanner.Sound text before) : scanner.segment? = Segment.first? scanner.cursor.rest := by
  unfold segment?
  split
  · rename_i hq
    obtain ⟨tail, htail⟩ := List.head?_eq_some_iff.mp hq.1
    have hbody := h.body?_eq_none hq.2 htail
    simp [htail, Segment.first?_quote, hbody]
  · rfl

/-- Passing over a segment keeps a scanner in good order. -/
theorem Sound.pass {scanner : Scanner} {text before rest : List Char} {segment : Segment}
    (h : scanner.Sound text before) (hrest : scanner.cursor.rest = segment.text ++ rest)
    (hfits : segment.FitsBefore rest) :
    (scanner.pass segment).Sound text (before ++ segment.text) where
  stands := h.stands.past hrest
  unclosed := by
    intro offset ho
    have hpast : scanner.cursor.offset < (scanner.pass segment).cursor.offset := by
      have := byteLength_pos (Segment.text_ne_nil hfits)
      simp only [Scanner.pass, Cursor.past]
      omega
    have hold : ∀ o, scanner.unclosedFrom = some o →
        ∃ front back, text = front ++ '\'' :: back ∧ byteLength front = o ∧
          o < (scanner.pass segment).cursor.offset ∧ Literal.body? back = none := by
      intro o hsome
      obtain ⟨front, back, htext, hbytes, hlt, hbody⟩ := h.unclosed o hsome
      exact ⟨front, back, htext, hbytes, by omega, hbody⟩
    cases segment with
    | openQuote =>
      cases hu : scanner.unclosedFrom with
      | some o =>
        simp only [Scanner.pass, hu, Option.some_or, Option.some.injEq] at ho
        subst ho
        exact hold o hu
      | none =>
        simp only [Scanner.pass, hu, Option.none_or, Option.some.injEq] at ho
        subst ho
        refine ⟨before, rest, ?_, h.stands.offset_eq.symm, hpast, ?_⟩
        · rw [h.stands.text_eq, hrest]
          rfl
        · rw [Option.eq_none_iff_forall_ne_some]
          intro pieces hsome
          obtain ⟨hpieces, after, heq⟩ := Literal.eq_inner_of_body? hsome
          exact hfits pieces after hpieces heq
    | blank run => exact hold offset ho
    | word letters => exact hold offset ho
    | digits run => exact hold offset ho
    | mark m => exact hold offset ho
    | literal pieces => exact hold offset ho
    | stray c => exact hold offset ho

/-! ## One token -/

/-- A scanner in good order still has these items of its text to give. -/
def Shows (scanner : Scanner) (text : List Char) (items : List Item) : Prop :=
  ∃ before segments, scanner.Sound text before ∧ Splits scanner.cursor.rest segments ∧
    Yields before segments items

theorem isEnd_of_kind? {segment : Segment} {kind : Token.Kind} (h : segment.kind? = some kind) :
    kind.isEnd = false := by
  cases segment with
  | word letters =>
    simp only [Segment.kind?, Option.some.injEq] at h
    subst h
    unfold Token.Kind.ofWord
    split <;> rfl
  | digits run =>
    obtain ⟨n, -, rfl⟩ := Option.map_eq_some_iff.mp h
    rfl
  | literal pieces =>
    obtain ⟨s, -, rfl⟩ := Option.map_eq_some_iff.mp h
    rfl
  | mark m => cases h; rfl
  | blank run => cases h
  | openQuote => cases h
  | stray c => cases h

/-- The next token is the first among the items, and the problems before it are
recorded. After the end of the query the end comes again. -/
theorem nextToken_of_shows {scanner : Scanner} {text : List Char} {items : List Item}
    (h : scanner.Shows text items) :
    ∃ problems item more, items = problems ++ item :: more ∧ tokensOf problems = [] ∧
      item.token? = some scanner.nextToken.1 ∧
      scanner.nextToken.2.diagnostics.toList =
        scanner.diagnostics.toList ++ diagnosticsOf problems ∧
      scanner.nextToken.2.Shows text (if more = [] then [item] else more) ∧
      (scanner.nextToken.1.isEnd = true ↔ more = []) := by
  obtain ⟨before, segments, hsound, hsplits, hyields⟩ := h
  -- The induction goes over the segments that give no token.
  induction hyields generalizing scanner with
  | nil before =>
    have hrest : scanner.cursor.rest = [] := hsplits.nil_text
    have hnone : scanner.segment? = none := (segment?_eq_none_iff scanner).mpr hrest
    have hnext := nextToken_of_none hnone
    refine ⟨[], _, [], rfl, rfl, ?_, ?_, ?_, ?_⟩
    · rw [hnext]
      simp [Item.token?, Item.line, hsound.stands.line_eq]
    · simp [hnext, diagnosticsOf]
    · rw [hnext]
      exact ⟨before, [], hsound, hsplits, .nil before⟩
    · simp [hnext, Token.isEnd, Token.Kind.isEnd]
  | @cons before segment segments items more hitems hmore ih =>
    generalize hr : scanner.cursor.rest = input at hsplits
    cases hsplits with
    | @cons _ rest _ hfits hrest =>
      have hsome : scanner.segment? = some segment := by
        rw [hsound.segment?_eq, hr]
        exact Segment.first?_of_fitsBefore hfits
      have hpass := hsound.pass hr hfits
      have hafter : Splits (scanner.pass segment).cursor.rest segments := by
        simpa [pass, Cursor.past, hr] using hrest
      cases hkind : segment.kind? with
      | some kind =>
        obtain ⟨rfl, hclean⟩ := hitems.of_kind hkind
        have hne := hmore.ne_nil
        rw [nextToken_of_kind hsome hkind]
        refine ⟨[], ⟨before, .inl kind⟩, more, rfl, rfl, ?_, ?_, ?_, ?_⟩
        · simp [Item.token?, Item.line, hsound.stands.line_eq]
        · simp [pass, hclean, diagnosticsOf]
        · rw [if_neg hne]
          exact ⟨_, _, hpass, hafter, hmore⟩
        · simp [Token.isEnd, isEnd_of_kind? hkind, hne]
      | none =>
        obtain ⟨htokens, hdiagnostics⟩ := hitems.of_skip hkind
        obtain ⟨problems, item, more', rfl, hproblems, hitem, hrecorded, hshows, hend⟩ :=
          ih hpass hafter
        rw [nextToken_of_skip hsome hkind]
        refine ⟨items ++ problems, item, more', by simp, by simp [htokens, hproblems], hitem, ?_,
          hshows, hend⟩
        rw [hrecorded]
        simp [pass, hdiagnostics, hsound.stands.line_eq]

theorem finished_nextToken (scanner : Scanner) :
    scanner.nextToken.2.finished = scanner.finished := by
  fun_induction nextToken scanner with
  | case1 => rfl
  | case2 => rfl
  | case3 scanner segment _ _ ih => exact ih

/-! ## All tokens -/

theorem diagnostic?_of_token? {item : Item} {token : Token} (h : item.token? = some token) :
    item.diagnostic? = none := by
  unfold Item.token? at h
  unfold Item.diagnostic?
  cases hcontent : item.content with
  | inl kind => rfl
  | inr cause =>
    rw [hcontent] at h
    cases h

/-- A stream that has not ended gives all tokens among the items, and records
all problems. -/
theorem drain_of_shows {scanner : Scanner} {text : List Char} {items : List Item}
    (h : scanner.Shows text items) (hopen : scanner.finished = false) :
    scanner.drain.1 = tokensOf items ∧
      scanner.drain.2.diagnostics.toList =
        scanner.diagnostics.toList ++ diagnosticsOf items := by
  induction hn : items.length using Nat.strongRecOn generalizing scanner items with
  | _ n ih =>
    obtain ⟨problems, item, more, rfl, hproblems, hitem, hrecorded, hshows, hend⟩ :=
      nextToken_of_shows h
    have hnone := diagnostic?_of_token? hitem
    have htokens : tokensOf (problems ++ item :: more) = scanner.nextToken.1 :: tokensOf more := by
      simp only [tokensOf_append, hproblems, List.nil_append]
      simp [tokensOf, hitem]
    have hdiagnostics : diagnosticsOf (problems ++ item :: more) =
        diagnosticsOf problems ++ diagnosticsOf more := by
      rw [diagnosticsOf_append]
      simp [diagnosticsOf, hnone]
    rw [drain, if_neg (by simp [hopen]), htokens, hdiagnostics]
    by_cases hmore : more = []
    · have hlast := hend.mpr hmore
      subst hmore
      simp [hlast, hrecorded, tokensOf, diagnosticsOf]
    · have hlast : ¬ scanner.nextToken.1.isEnd = true := fun he => hmore (hend.mp he)
      rw [if_neg hmore] at hshows
      obtain ⟨htail, hrest⟩ := ih more.length (by simp at hn; omega) hshows
        ((finished_nextToken scanner).trans hopen) rfl
      rw [hrecorded, List.append_assoc] at hrest
      simp [hlast, htail, hrest]

theorem shows_ofText {text : String} {segments : List Segment} {items : List Item}
    (hsplits : Splits text.toList segments) (hyields : Yields [] segments items) :
    (ofText text).Shows text.toList items :=
  ⟨[], segments, sound_ofText text, hsplits, hyields⟩

end Scanner

/-- The tokens and the problems of a text are those of its items. -/
theorem tokenize_of_yields {text : String} {segments : List Segment} {items : List Item}
    (hsplits : Splits text.toList segments) (hyields : Yields [] segments items) :
    tokenize text = (tokensOf items, diagnosticsOf items) := by
  obtain ⟨htokens, hdiagnostics⟩ :=
    Scanner.drain_of_shows (Scanner.shows_ofText hsplits hyields) rfl
  unfold tokenize
  simp only [htokens, hdiagnostics]
  simp [Scanner.ofText]

/-! ## The items of a text -/

/-- A text gives these items. -/
def Gives (text : String) (items : List Item) : Prop :=
  ∃ segments, Splits text.toList segments ∧ Yields [] segments items

theorem exists_gives (text : String) : ∃ items, Gives text items := by
  obtain ⟨segments, hsplits⟩ := exists_splits text.toList
  obtain ⟨items, hyields⟩ := exists_yields [] segments
  exact ⟨items, segments, hsplits, hyields⟩

theorem Gives.tokenize_eq {text : String} {items : List Item} (h : Gives text items) :
    tokenize text = (tokensOf items, diagnosticsOf items) := by
  obtain ⟨segments, hsplits, hyields⟩ := h
  exact tokenize_of_yields hsplits hyields

theorem Gives.shows {text : String} {items : List Item} (h : Gives text items) :
    (Scanner.ofText text).Shows text.toList items := by
  obtain ⟨segments, hsplits, hyields⟩ := h
  exact Scanner.shows_ofText hsplits hyields

theorem Gives.last {text : String} {items : List Item} (h : Gives text items) :
    ∃ found before, items = found ++ [⟨before, .inl .endOfInput⟩] ∧
      ∀ item ∈ found, item.content ≠ .inl .endOfInput := by
  obtain ⟨segments, -, hyields⟩ := h
  obtain ⟨found, hitems, hfound⟩ := hyields.last
  exact ⟨found, _, hitems, hfound⟩

theorem Gives.pairwise {text : String} {items : List Item} (h : Gives text items) :
    items.Pairwise fun a b => a.place < b.place := by
  obtain ⟨segments, hsplits, hyields⟩ := h
  exact (hyields.between hsplits).1

/-- The kinds of the tokens of a text. -/
def kindsOf (text : String) : List Token.Kind :=
  (tokenize text).1.map Token.kind

/-! ## The law -/

/-- A text falls into segments in exactly one way, without gaps, and the segments
give items in exactly one way. The tokens and the problems of the text are those
among these items, in order, each with the line of its place. The end of the
query comes last and only there. -/
theorem a_text_is_scanned_as_its_segments (text : String) :
    ∃ segments items,
      (Splits text.toList segments ∧ ∀ others, Splits text.toList others → others = segments) ∧
      text.toList = segments.flatMap Segment.text ∧
      (Yields [] segments items ∧ ∀ others, Yields [] segments others → others = items) ∧
      tokenize text = (items.filterMap Item.token?, items.filterMap Item.diagnostic?) ∧
      ∃ found, items = found ++ [⟨text.toList, .inl .endOfInput⟩] ∧
        ∀ item ∈ found, item.content ≠ .inl .endOfInput := by
  obtain ⟨segments, hsplits⟩ := exists_splits text.toList
  obtain ⟨items, hyields⟩ := exists_yields [] segments
  refine ⟨segments, items, ⟨hsplits, fun others h => h.unique hsplits⟩, hsplits.text_eq,
    ⟨hyields, fun others h => h.unique hyields⟩, tokenize_of_yields hsplits hyields, ?_⟩
  obtain ⟨found, hitems, hfound⟩ := hyields.last
  rw [List.nil_append, ← hsplits.text_eq] at hitems
  exact ⟨found, hitems, hfound⟩

end SelectQuery
