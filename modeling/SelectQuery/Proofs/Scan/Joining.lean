-- Texts with a blank between them. A run of characters ends before a blank and a
-- literal ends at its quote, so what is found in the first text does not depend
-- on the second, unless a quote of the first is left open. And what is found in
-- the second is found on its own, but further down.
import SelectQuery.Proofs.Scan.Tokenization

namespace SelectQuery

/-! ## Items after a stretch of text -/

/-- The text after `before` gives these items. -/
def GivesAfter (before input : List Char) (items : List Item) : Prop :=
  ∃ segments, Splits input segments ∧ Yields before segments items

theorem exists_givesAfter (before input : List Char) : ∃ items, GivesAfter before input items := by
  obtain ⟨segments, hsplits⟩ := exists_splits input
  obtain ⟨items, hyields⟩ := exists_yields before segments
  exact ⟨items, segments, hsplits, hyields⟩

/-- Two texts with a character between them, as one text. -/
theorem GivesAfter.gives {a b : String} {w : Char} {items : List Item}
    (h : GivesAfter [] (a.toList ++ w :: b.toList) items) : Gives (a ++ w.toString ++ b) items := by
  unfold Gives
  simpa [GivesAfter] using h

/-! ## Blanks -/

/-- Only a run of blanks starts with a blank. -/
theorem Segment.eq_blank_of_head {segment : Segment} {rest cs : List Char} {c : Char}
    (hfits : segment.FitsBefore rest) (htext : segment.text = c :: cs)
    (hc : isBlank c = true) : segment = .blank (c :: cs) := by
  have hfirst := first?_of_fitsBefore hfits
  rw [htext, List.cons_append, first?, if_pos hc] at hfirst
  cases hfirst
  exact congrArg blank htext

/-- A blank before a text gives nothing, also where it makes a run of blanks
longer. -/
theorem GivesAfter.blank {before input : List Char} {items : List Item} {c : Char}
    (hc : isBlank c = true) (h : GivesAfter (before ++ [c]) input items) :
    GivesAfter before (c :: input) items := by
  obtain ⟨segments, hsplits, hyields⟩ := h
  -- A blank that no other follows is a run of its own.
  have halone : (∀ d ∈ input.head?, isBlank d = false) → GivesAfter before (c :: input) items := by
    intro hhead
    have hfits : (Segment.blank [c]).FitsBefore input := ⟨by simp, by simpa using hc, hhead⟩
    exact ⟨_, .cons hfits hsplits, .cons (.blank [c]) hyields⟩
  by_cases hhead : ∀ d ∈ input.head?, isBlank d = false
  · exact halone hhead
  · cases hsplits with
    | nil => exact halone (by simp)
    | @cons segment rest segments hfits hrest =>
      obtain ⟨d, ds, htext⟩ := List.exists_cons_of_ne_nil (Segment.text_ne_nil hfits)
      have hd : isBlank d = true := by
        by_contra hd
        apply hhead
        simpa [htext] using hd
      obtain rfl := Segment.eq_blank_of_head hfits htext hd
      obtain ⟨-, hrun, hnext⟩ := hfits
      have hlonger : (Segment.blank (c :: d :: ds)).FitsBefore rest :=
        ⟨by simp, by simpa using ⟨hc, by simpa using hrun⟩, hnext⟩
      cases hyields with
      | cons hitems hmore =>
        cases hitems
        refine ⟨_, .cons hlonger hrest, .cons (.blank _) ?_⟩
        simpa [Segment.text] using hmore

theorem GivesAfter.blanks {before run input : List Char} {items : List Item}
    (hrun : ∀ c ∈ run, isBlank c = true) (h : GivesAfter (before ++ run) input items) :
    GivesAfter before (run ++ input) items := by
  induction run generalizing before with
  | nil => simpa using h
  | cons c run ih =>
    apply GivesAfter.blank (hrun c List.mem_cons_self)
    apply ih fun d hd => hrun d (List.mem_cons_of_mem _ hd)
    simpa using h

/-! ## One segment before a blank -/

theorem head_append_blank {p : Char → Bool} {rest : List Char} {w : Char} (after : List Char)
    (hrest : ∀ c ∈ rest.head?, p c = false) (hw : p w = false) :
    ∀ c ∈ (rest ++ w :: after).head?, p c = false := by
  cases rest with
  | nil => simpa using hw
  | cons c cs => simpa using hrest

/-- A segment reaches no further for a blank behind the text. An open quote may be
closed there, and a run of blanks may go on. -/
theorem Segment.FitsBefore.append_blank {segment : Segment} {rest : List Char} {w : Char}
    (h : segment.FitsBefore rest) (hopen : segment ≠ .openQuote)
    (hblank : ∀ run, segment ≠ .blank run) (hw : isBlank w = true) (after : List Char) :
    segment.FitsBefore (rest ++ w :: after) := by
  cases segment with
  | blank run => exact absurd rfl (hblank run)
  | word letters => exact ⟨h.1, head_append_blank after h.2 (isWordPart_of_blank hw)⟩
  | digits run => exact ⟨h.1, h.2.1, head_append_blank after h.2.2 (isDigit_of_blank hw)⟩
  | mark m => trivial
  | literal pieces => exact h
  | openQuote => exact absurd rfl hopen
  | stray c => exact h

/-- A segment gives the same items with a blank behind the text. -/
theorem GivesAfter.segment {before rest after : List Char} {segment : Segment} {w : Char}
    {items others : List Item} (hfits : segment.FitsBefore rest) (hopen : segment ≠ .openQuote)
    (hitems : segment.Yields before items) (hw : isBlank w = true)
    (h : GivesAfter (before ++ segment.text) (rest ++ w :: after) others) :
    GivesAfter before (segment.text ++ (rest ++ w :: after)) (items ++ others) := by
  by_cases hblank : ∃ run, segment = .blank run
  · obtain ⟨run, rfl⟩ := hblank
    cases hitems
    exact h.blanks hfits.2.1
  · obtain ⟨segments, hsplits, hyields⟩ := h
    have hfits' := hfits.append_blank hopen (by simpa using hblank) hw after
    exact ⟨_, .cons hfits' hsplits, .cons hitems hyields⟩

/-! ## A text before a blank -/

/-- The item is no quote that is left open. -/
def Item.Closed (item : Item) : Prop :=
  item.content ≠ .inr .unterminatedString

theorem Segment.Yields.ne_openQuote {before : List Char} {segment : Segment} {items : List Item}
    (h : segment.Yields before items) (hclosed : ∀ item ∈ items, item.Closed) :
    segment ≠ .openQuote := by
  rintro rfl
  cases h
  exact hclosed _ List.mem_cons_self rfl

/-- A text without open quotes, a blank, and any other text: the items of the first
up to its end, and then those of the second where it stands. -/
theorem GivesAfter.join {before input after : List Char} {w : Char} {items others : List Item}
    (h : GivesAfter before input items) (hclosed : ∀ item ∈ items, item.Closed)
    (hw : isBlank w = true) (hafter : GivesAfter (before ++ input) (w :: after) others) :
    ∃ found, items = found ++ [⟨before ++ input, .inl .endOfInput⟩] ∧
      GivesAfter before (input ++ w :: after) (found ++ others) := by
  obtain ⟨segments, hsplits, hyields⟩ := h
  induction hyields generalizing input with
  | nil before =>
    obtain rfl := hsplits.nil_text
    exact ⟨[], by simp, by simpa using hafter⟩
  | @cons before segment segments items more hitems hmore ih =>
    cases hsplits with
    | @cons _ rest _ hfits hrest =>
      have hopen := hitems.ne_openQuote fun item hmem =>
        hclosed item (List.mem_append_left more hmem)
      rw [← List.append_assoc] at hafter
      obtain ⟨found, hfound, hjoined⟩ := ih
        (fun item hmem => hclosed item (List.mem_append_right items hmem)) hafter hrest
      refine ⟨items ++ found, by simp [hfound], ?_⟩
      rw [List.append_assoc, List.append_assoc]
      exact GivesAfter.segment hfits hopen hitems hw hjoined

/-- The items of a text up to one of them stay as they are with a blank and any
other text behind it, unless a quote among them is left open. -/
theorem GivesAfter.keeps {before input : List Char} {w : Char} {front more : List Item}
    (h : GivesAfter before input (front ++ more)) (hmore : more ≠ [])
    (hclosed : ∀ item ∈ front, item.Closed) (hw : isBlank w = true) (after : List Char) :
    ∃ others, GivesAfter before (input ++ w :: after) (front ++ others) := by
  obtain ⟨segments, hsplits, hyields⟩ := h
  generalize hall : front ++ more = items at hyields
  induction hyields generalizing input front with
  | nil before =>
    cases front with
    | nil => exact exists_givesAfter before _
    | cons item front =>
      obtain ⟨-, hnone⟩ := List.cons.inj hall
      exact absurd (List.append_eq_nil_iff.mp hnone).2 hmore
  | @cons before segment segments items later hitems hlater ih =>
    cases front with
    | nil => exact exists_givesAfter before _
    | cons item front =>
      -- An open quote would be the first item.
      have hopen : segment ≠ .openQuote := by
        rintro rfl
        cases hitems
        obtain ⟨rfl, -⟩ := List.cons.inj hall
        exact hclosed _ List.mem_cons_self rfl
      cases hsplits with
      | @cons _ rest _ hfits hrest =>
        rw [List.append_assoc]
        rcases List.append_eq_append_iff.mp hall with ⟨m, rfl, -⟩ | ⟨m, hfront, hm⟩
        · -- The segment gives all that is to stay, and perhaps more.
          obtain ⟨others, hothers⟩ :=
            exists_givesAfter (before ++ segment.text) (rest ++ w :: after)
          refine ⟨m ++ others, ?_⟩
          have hkept := GivesAfter.segment hfits hopen hitems hw hothers
          rwa [List.append_assoc (item :: front)] at hkept
        · rw [hfront] at hclosed ⊢
          obtain ⟨others, hothers⟩ := ih
            (fun item hmem => hclosed item (List.mem_append_right items hmem)) hrest hm.symm
          refine ⟨others, ?_⟩
          rw [List.append_assoc]
          exact GivesAfter.segment hfits hopen hitems hw hothers

/-! ## A text further down -/

/-- The item with more text before it. -/
def Item.movedBehind (front : List Char) (item : Item) : Item :=
  { item with before := front ++ item.before }

/-- The token so many lines further down. -/
def Token.movedDown (lines : Nat) (token : Token) : Token :=
  { token with line := token.line + lines }

/-- The problem so many lines further down. -/
def Diagnostic.movedDown (lines : Nat) (diagnostic : Diagnostic) : Diagnostic :=
  { diagnostic with line := diagnostic.line + lines }

theorem Item.line_movedBehind (front : List Char) (item : Item) :
    (item.movedBehind front).line = item.line + lineFeeds front := by
  simp only [line, movedBehind, lineFeeds_append]
  omega

theorem tokensOf_movedBehind (front : List Char) (items : List Item) :
    tokensOf (items.map (Item.movedBehind front)) =
      (tokensOf items).map (Token.movedDown (lineFeeds front)) := by
  unfold tokensOf
  rw [List.filterMap_map, List.map_filterMap]
  congr 1
  funext item
  have hline := item.line_movedBehind front
  rcases item with ⟨before, kind | cause⟩
  · exact congrArg (fun n => some (Token.mk kind n)) hline
  · rfl

theorem diagnosticsOf_movedBehind (front : List Char) (items : List Item) :
    diagnosticsOf (items.map (Item.movedBehind front)) =
      (diagnosticsOf items).map (Diagnostic.movedDown (lineFeeds front)) := by
  unfold diagnosticsOf
  rw [List.filterMap_map, List.map_filterMap]
  congr 1
  funext item
  have hline := item.line_movedBehind front
  rcases item with ⟨before, kind | cause⟩
  · rfl
  · exact congrArg (fun n => some (Diagnostic.mk cause n)) hline

theorem badEscapeItems_movedBehind (front before : List Char) (pieces : List Literal.Piece) :
    badEscapeItems (front ++ before) pieces =
      (badEscapeItems before pieces).map (Item.movedBehind front) := by
  induction pieces generalizing before with
  | nil => rfl
  | cons piece pieces ih =>
    cases piece with
    | plain c =>
      simp only [badEscapeItems]
      rw [List.append_assoc, ih]
    | escape c =>
      simp only [badEscapeItems, List.map_append]
      rw [List.append_assoc, ih]
      congr 1
      split
      · rfl
      · rfl

theorem Segment.Yields.movedBehind {before : List Char} {segment : Segment} {items : List Item}
    (h : segment.Yields before items) (front : List Char) :
    segment.Yields (front ++ before) (items.map (Item.movedBehind front)) := by
  cases h with
  | blank run => exact .blank run
  | keyword hk => exact .keyword hk
  | name hn => exact .name hn
  | number hn => exact .number hn
  | tooLarge hlt => exact .tooLarge hlt
  | mark m => exact .mark m
  | string hgood => exact .string hgood
  | badString hmem hbad =>
    rw [← badEscapeItems_movedBehind, ← List.append_assoc]
    exact .badString hmem hbad
  | openQuote => exact .openQuote
  | stray c => exact .stray c

theorem GivesAfter.movedBehind {before input : List Char} {items : List Item}
    (h : GivesAfter before input items) (front : List Char) :
    GivesAfter (front ++ before) input (items.map (Item.movedBehind front)) := by
  obtain ⟨segments, hsplits, hyields⟩ := h
  refine ⟨segments, hsplits, ?_⟩
  clear hsplits
  induction hyields with
  | nil before => exact .nil _
  | cons hitems _ ih =>
    rw [List.map_append]
    refine .cons (hitems.movedBehind front) ?_
    rwa [List.append_assoc]

/-! ## The law -/

theorem closed_of_diagnosticsOf {items : List Item}
    (h : ∀ d ∈ diagnosticsOf items, d.cause ≠ .unterminatedString) :
    ∀ item ∈ items, item.Closed := by
  rintro ⟨before, content⟩ hmem hopen
  obtain rfl : content = .inr .unterminatedString := hopen
  exact h _ (List.mem_filterMap.mpr ⟨_, hmem, rfl⟩) rfl

/-- Two texts with a blank between them have the tokens of the first but for its
end, and then those of the second, moved down by the line feeds before it. So it is
with their problems. Only a quote that the first leaves open could reach into the
second. -/
theorem a_blank_divides_a_text (a b : String) (w : Char) (hw : isBlank w = true)
    (hclosed : ∀ d ∈ (tokenize a).2, d.cause ≠ .unterminatedString) :
    tokenize (a ++ w.toString ++ b) =
      ((tokenize a).1.dropLast ++
          (tokenize b).1.map (Token.movedDown (lineFeeds (a ++ w.toString).toList)),
        (tokenize a).2 ++
          (tokenize b).2.map (Diagnostic.movedDown (lineFeeds (a ++ w.toString).toList))) := by
  obtain ⟨items, hitems⟩ := exists_givesAfter [] a.toList
  obtain ⟨others, hothers⟩ := exists_givesAfter [] b.toList
  have ha : tokenize a = (tokensOf items, diagnosticsOf items) := Gives.tokenize_eq hitems
  have hb : tokenize b = (tokensOf others, diagnosticsOf others) := Gives.tokenize_eq hothers
  have hfront : (a ++ w.toString).toList = [] ++ a.toList ++ [w] := by simp
  have hmoved := hothers.movedBehind (a ++ w.toString).toList
  rw [List.append_nil, hfront] at hmoved
  rw [ha] at hclosed
  obtain ⟨found, hfound, hjoined⟩ :=
    hitems.join (closed_of_diagnosticsOf hclosed) hw (hmoved.blank hw)
  have htokens : (tokensOf items).dropLast = tokensOf found := by
    rw [hfound, tokensOf_append]
    exact List.dropLast_concat
  have hproblems : diagnosticsOf items = diagnosticsOf found := by
    rw [hfound, diagnosticsOf_append]
    exact List.append_nil _
  rw [hjoined.gives.tokenize_eq, ha, hb, htokens, hproblems, tokensOf_append,
    diagnosticsOf_append, tokensOf_movedBehind, diagnosticsOf_movedBehind, hfront]

/-- An open quote on the last line leaves what is above it alone. -/
theorem a_line_feed_divides_a_text :
    (∀ d ∈ (tokenize "a 'b\\x' #").2, d.cause ≠ .unterminatedString) ∧
      tokenize ("a 'b\\x' #" ++ Char.toString '\n' ++ "c\n'd") =
        ([⟨.name "a", 1⟩, ⟨.name "c", 2⟩, ⟨.name "d", 3⟩, ⟨.endOfInput, 3⟩],
          [⟨.invalidEscape 'x', 1⟩, ⟨.illegalCharacter '#', 1⟩, ⟨.unterminatedString, 3⟩]) := by
  have hclosed : ∀ d ∈ (tokenize "a 'b\\x' #").2, d.cause ≠ .unterminatedString := by
    decide +kernel
  refine ⟨hclosed, ?_⟩
  rw [a_blank_divides_a_text _ "c\n'd" '\n' (by decide) hclosed]
  decide +kernel

end SelectQuery
