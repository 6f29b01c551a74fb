-- The laws of listings. A line of a listing shows pieces of the text, some as they
-- stand and some quoted. Which characters can reach it is a matter of the segments;
-- the only line feed that does is one after a backslash in a literal.
import SelectQuery.Command.Response
import SelectQuery.Proofs.Scan.Spelling

namespace SelectQuery

/-! ## Texts without line feeds -/

theorem lineFeeds_eq_zero_iff {cs : List Char} : lineFeeds cs = 0 ↔ '\n' ∉ cs :=
  List.count_eq_zero

theorem eq_digitChar_of_mem {base : Nat} (hbase : 1 < base) {n : Nat} {c : Char}
    (h : c ∈ Nat.toDigits base n) : ∃ d : Nat, c = d.digitChar := by
  induction n using Nat.strongRecOn with
  | _ n ih =>
    rw [Nat.toDigits_eq_if hbase] at h
    split at h
    · exact ⟨n, List.mem_singleton.mp h⟩
    · next hge =>
      rcases List.mem_append.mp h with h | h
      · exact ih _ (Nat.div_lt_self (by omega) hbase) h
      · exact ⟨n % base, List.mem_singleton.mp h⟩

theorem lineFeeds_toDigits {base : Nat} (hbase : 1 < base) (n : Nat) :
    lineFeeds (Nat.toDigits base n) = 0 := by
  rw [lineFeeds_eq_zero_iff]
  intro h
  obtain ⟨d, hd⟩ := eq_digitChar_of_mem hbase h
  exact Nat.digitChar_ne '\n' (by decide) hd.symm

theorem lineFeeds_nat (n : Nat) : lineFeeds (toString n).toList = 0 := by
  rw [show (toString n).toList = Nat.toDigits 10 n from Nat.toList_repr]
  exact lineFeeds_toDigits (by decide) n

theorem lineFeeds_int (n : Int) : lineFeeds (toString n).toList = 0 := by
  cases n with
  | ofNat m => exact lineFeeds_nat m
  | negSucc m =>
    rw [show toString (Int.negSucc m) = "-" ++ toString (m + 1) from rfl, String.toList_append,
      lineFeeds_append, lineFeeds_nat]
    rfl

/-- No character stands between double quotes as a line feed. -/
theorem lineFeeds_quotedChar (c : Char) : lineFeeds (quotedChar c) = 0 := by
  fun_cases quotedChar c with
  | case7 c _ _ _ hfeed _ _ _ => simpa using hfeed
  | case8 c => simp [codePointEscape, lineFeeds_toDigits]
  | _ => decide

theorem lineFeeds_quoted (text : String) : lineFeeds (quoted text).toList = 0 := by
  rw [lineFeeds_eq_zero_iff]
  simp only [quoted, String.toList_ofList, List.mem_append, List.mem_cons, List.mem_flatMap]
  rintro ((hquote | ⟨c, -, hc⟩) | hquote)
  · cases hquote
  · exact lineFeeds_eq_zero_iff.mp (lineFeeds_quotedChar c) hc
  · simp at hquote

theorem lineFeeds_spaces (n : Nat) : lineFeeds ("".pushn ' ' n).toList = 0 := by
  rw [String.pushn_eq_repeat_push]
  induction n with
  | zero => decide
  | succ n ih => simp [Nat.repeat, ih]

theorem lineFeeds_alignRight (width : Nat) (text : String) :
    lineFeeds (alignRight width text).toList = lineFeeds text.toList := by
  rw [alignRight, String.toList_append, lineFeeds_append, lineFeeds_spaces, Nat.zero_add]

/-! ## Lines of tokens -/

theorem lineFeeds_label (kind : Token.Kind) : lineFeeds kind.label.toList = 0 := by
  cases kind with
  | keyword k => cases k <;> decide
  | mark m => cases m <;> decide
  | name _ => exact (by decide : lineFeeds "NAME".toList = 0)
  | number _ => exact (by decide : lineFeeds "NUMBER".toList = 0)
  | string _ => exact (by decide : lineFeeds "STRING".toList = 0)
  | endOfInput => decide

theorem lineFeeds_word {letters : List Char} (h : isWord letters = true) :
    lineFeeds letters = 0 := by
  have hpart : isWordPart '\n' = false := by decide
  have hstart : isWordStart '\n' = false := by decide
  rw [lineFeeds_eq_zero_iff]
  intro hmem
  cases letters with
  | nil => cases hmem
  | cons c cs =>
    simp only [isWord, Bool.and_eq_true, List.all_eq_true] at h
    rcases List.mem_cons.mp hmem with rfl | hmem
    · simp [hstart] at h
    · simp [h.2 _ hmem] at hpart

theorem lineFeeds_content {kind : Token.Kind} (h : kind.WellFormed) {content : String}
    (hcontent : kind.content? = some content) : lineFeeds content.toList = 0 := by
  cases kind with
  | name n =>
    cases hcontent
    exact lineFeeds_word (isWord_of_isName h)
  | number n =>
    cases hcontent
    exact lineFeeds_int n.toInt
  | string s =>
    cases hcontent
    exact lineFeeds_quoted s
  | keyword k => cases hcontent
  | mark m => cases hcontent
  | endOfInput => cases hcontent

/-- A token that can be spelled is listed on one line. -/
theorem lineFeeds_token {token : Token} (h : token.kind.WellFormed) :
    lineFeeds token.listingLine.toList = 0 := by
  have hfront : lineFeeds (alignRight 4 (toString token.line) ++ " " ++ token.kind.label).toList =
      0 := by
    simp only [String.toList_append, lineFeeds_append, lineFeeds_alignRight, lineFeeds_nat,
      lineFeeds_label]
    rfl
  unfold Token.listingLine
  rw [String.toList_append, lineFeeds_append, hfront, Nat.zero_add]
  cases hcontent : token.kind.content? with
  | none => rfl
  | some content =>
    rw [String.toList_append, lineFeeds_append, lineFeeds_content h hcontent]
    rfl

/-! ## Lines of problems -/

/-- The cause can stand in a text: a line feed is never stray, and a number has none. -/
def Diagnostic.Cause.Arises : Cause → Prop
  | illegalCharacter c => c ≠ '\n'
  | numberOutOfRange literal => lineFeeds literal.toList = 0
  | _ => True

theorem lineFeeds_char (c : Char) :
    lineFeeds c.toString.toList = if c = '\n' then 1 else 0 := by
  simp

theorem lineFeeds_describe {cause : Diagnostic.Cause} (h : cause.Arises) :
    lineFeeds cause.describe.toList = if cause = .invalidEscape '\n' then 1 else 0 := by
  unfold Diagnostic.Cause.describe
  cases cause with
  | illegalCharacter c =>
    have hc : c ≠ '\n' := h
    have hfront : lineFeeds "Illegal character '".toList = 0 := by decide
    have hback : lineFeeds "'".toList = 0 := by decide
    simp only [String.toList_append, lineFeeds_append, lineFeeds_char,
      hfront, hback, if_neg hc, reduceCtorEq, if_false]
  | unterminatedString => decide
  | invalidEscape c =>
    have hfront : lineFeeds "Invalid escape '\\".toList = 0 := by decide
    have hback : lineFeeds "' in string literal".toList = 0 := by decide
    simp only [String.toList_append, lineFeeds_append, lineFeeds_char,
      hfront, hback, Diagnostic.Cause.invalidEscape.injEq, Nat.zero_add, Nat.add_zero]
  | numberOutOfRange literal =>
    have hliteral : lineFeeds literal.toList = 0 := h
    have hfront : lineFeeds "Integer literal ".toList = 0 := by decide
    have hback : lineFeeds " out of range".toList = 0 := by decide
    simp only [String.toList_append, lineFeeds_append, hliteral,
      hfront, hback, reduceCtorEq, if_false]

/-- The line of a problem has a line feed of its own only if that is what is
escaped. -/
theorem lineFeeds_diagnostic {d : Diagnostic} (h : d.cause.Arises) :
    lineFeeds d.listingLine.toList = if d.cause = .invalidEscape '\n' then 1 else 0 := by
  unfold Diagnostic.listingLine Diagnostic.message
  simp only [String.toList_append, lineFeeds_append, lineFeeds_nat, lineFeeds_describe h]
  exact Nat.zero_add _

/-! ## The problems of a text -/

/-- The pieces of a literal. -/
def Segment.pieces : Segment → List Literal.Piece
  | literal pieces => pieces
  | _ => []

/-- How often a line feed stands after a backslash in the literals among segments. -/
def escapedLineFeeds (segments : List Segment) : Nat :=
  (segments.flatMap Segment.pieces).count (.escape '\n')

/-- The problem is a line feed after a backslash. -/
def Diagnostic.isEscapedLineFeed (d : Diagnostic) : Bool :=
  d.cause = .invalidEscape '\n'

theorem countP_badEscapeItems (before : List Char) (pieces : List Literal.Piece) :
    (diagnosticsOf (badEscapeItems before pieces)).countP Diagnostic.isEscapedLineFeed =
      pieces.count (.escape '\n') := by
  induction pieces generalizing before with
  | nil => rfl
  | cons piece pieces ih =>
    cases piece with
    | plain c =>
      rw [badEscapeItems, ih, List.count_cons_of_ne (by simp)]
    | escape c =>
      rw [badEscapeItems, diagnosticsOf_append, List.countP_append, ih, List.count_cons,
        Nat.add_comm]
      congr 1
      by_cases hc : c = '\n'
      · subst hc
        rfl
      · split <;> simp [diagnosticsOf, Item.diagnostic?, Diagnostic.isEscapedLineFeed, hc]

theorem countP_of_yields {before : List Char} {segment : Segment} {items : List Item}
    (h : segment.Yields before items) :
    (diagnosticsOf items).countP Diagnostic.isEscapedLineFeed =
      segment.pieces.count (.escape '\n') := by
  cases h with
  | @string pieces hgood =>
    have hnone : pieces.count (.escape '\n') = 0 := by
      rw [List.count_eq_zero]
      intro hmem
      simpa using hgood '\n' hmem
    rw [Segment.pieces, hnone]
    rfl
  | badString hmem hbad => exact countP_badEscapeItems _ _
  | _ => rfl

theorem arises_of_yields {before rest : List Char} {segment : Segment} {items : List Item}
    (h : segment.Yields before items) (hfits : segment.FitsBefore rest) :
    ∀ d ∈ diagnosticsOf items, d.cause.Arises := by
  cases h with
  | @tooLarge run hlarge =>
    have hrun : lineFeeds run = 0 := by
      rw [lineFeeds_eq_zero_iff]
      intro hmem
      exact absurd (hfits.2.1 '\n' hmem) (by decide)
    simpa [diagnosticsOf, Item.diagnostic?, Diagnostic.Cause.Arises] using hrun
  | stray c =>
    have hc : c ≠ '\n' := by
      rintro rfl
      exact absurd hfits.1 (by decide)
    simpa [diagnosticsOf, Item.diagnostic?, Diagnostic.Cause.Arises] using hc
  | badString hmem hbad =>
    intro d hd
    rw [diagnosticsOf_badEscapeItems] at hd
    obtain ⟨bad, -, rfl⟩ := List.mem_map.mp hd
    trivial
  | openQuote => simp [diagnosticsOf, Item.diagnostic?, Diagnostic.Cause.Arises]
  | _ => simp [diagnosticsOf, Item.diagnostic?]

/-- The problems among the items of segments can stand in a text, and as many of them
are line feeds after a backslash as the segments have. -/
theorem Yields.problems {before input : List Char} {segments : List Segment} {items : List Item}
    (h : Yields before segments items) (hsplits : Splits input segments) :
    (∀ d ∈ diagnosticsOf items, d.cause.Arises) ∧
      (diagnosticsOf items).countP Diagnostic.isEscapedLineFeed = escapedLineFeeds segments := by
  induction h generalizing input with
  | nil before => exact ⟨by simp [diagnosticsOf, Item.diagnostic?], rfl⟩
  | cons hitems hmore ih =>
    cases hsplits with
    | cons hfits hrest =>
      obtain ⟨harises, hcount⟩ := ih hrest
      rw [diagnosticsOf_append]
      refine ⟨List.forall_mem_append.mpr ⟨arises_of_yields hitems hfits, harises⟩, ?_⟩
      rw [List.countP_append, countP_of_yields hitems, hcount, escapedLineFeeds, escapedLineFeeds,
        List.flatMap_cons, List.count_append]

/-! ## The law -/

/-- Each printed line ends with a line feed; the others stand in the lines. -/
theorem lineFeeds_join (lines : List String) :
    lineFeeds (String.join (lines.map (· ++ "\n"))).toList =
      lines.length + lineFeeds (lines.flatMap String.toList) := by
  have hend : lineFeeds "\n".toList = 1 := by decide
  induction lines with
  | nil => rfl
  | cons line lines ih =>
    simp only [List.map_cons, String.join_cons, String.toList_append, lineFeeds_append, ih, hend,
      List.length_cons, List.flatMap_cons]
    omega

theorem lineFeeds_diagnostics {ds : List Diagnostic} (h : ∀ d ∈ ds, d.cause.Arises) :
    lineFeeds ((ds.map Diagnostic.listingLine).flatMap String.toList) =
      ds.countP Diagnostic.isEscapedLineFeed := by
  induction ds with
  | nil => rfl
  | cons d ds ih =>
    obtain ⟨hd, hds⟩ := List.forall_mem_cons.mp h
    rw [List.map_cons, List.flatMap_cons, lineFeeds_append, ih hds, lineFeeds_diagnostic hd,
      List.countP_cons, Nat.add_comm]
    simp [Diagnostic.isEscapedLineFeed]

theorem lineFeeds_of_mem_tokens {text : String} {token : Token}
    (h : token ∈ (Listing.ofText text).tokens) : lineFeeds token.listingLine.toList = 0 :=
  lineFeeds_token (wellFormed_kindsOf text _ (List.mem_map_of_mem h))

theorem problems_of_splits {text : String} {segments : List Segment}
    (h : Splits text.toList segments) :
    (∀ d ∈ (Listing.ofText text).diagnostics, d.cause.Arises) ∧
      (Listing.ofText text).diagnostics.countP Diagnostic.isEscapedLineFeed =
        escapedLineFeeds segments := by
  obtain ⟨items, hyields⟩ := exists_yields [] segments
  have hproblems : (Listing.ofText text).diagnostics = diagnosticsOf items :=
    congrArg Prod.snd (tokenize_of_yields h hyields)
  rw [hproblems]
  exact hyields.problems h

/-- The lines of a listing have as many line feeds as its text has after backslashes
in literals. -/
theorem lineFeeds_listing {text : String} {segments : List Segment}
    (h : Splits text.toList segments) :
    lineFeeds ((Listing.ofText text).lines.flatMap String.toList) = escapedLineFeeds segments := by
  obtain ⟨harises, hcount⟩ := problems_of_splits h
  have htokens : lineFeeds (((Listing.ofText text).tokens.map Token.listingLine).flatMap
      String.toList) = 0 := by
    rw [lineFeeds_eq_zero_iff]
    simp only [List.mem_flatMap, List.mem_map, not_exists, not_and]
    rintro _ ⟨token, htoken, rfl⟩
    exact lineFeeds_eq_zero_iff.mp (lineFeeds_of_mem_tokens htoken)
  rw [Listing.lines, List.flatMap_append, lineFeeds_append, htokens,
    lineFeeds_diagnostics harises, hcount, Nat.zero_add]

/-- A token is listed on one line, and so is a problem, unless it is that a literal
has a line feed after a backslash: this line feed stands in the line as it is. So a
listing is printed on as many lines as it has tokens and problems if the text has no
such line feed, and on one more for each that it has. -/
theorem a_listing_breaks_a_line_only_at_an_escaped_line_feed (text : String) :
    ∃ segments, Splits text.toList segments ∧
      (∀ token ∈ (Listing.ofText text).tokens, '\n' ∉ token.listingLine.toList) ∧
      (∀ d ∈ (Listing.ofText text).diagnostics,
        '\n' ∈ d.listingLine.toList ↔ d.cause = .invalidEscape '\n') ∧
      ((∀ line ∈ (Listing.ofText text).lines, '\n' ∉ line.toList) ↔
        escapedLineFeeds segments = 0) ∧
      ∀ given input, Command.queryText given.query input = .ok text →
        ∃ output, Command.Invocation.output ⟨.tokens, given⟩ input = .ok output ∧
          lineFeeds output.toList = (Listing.ofText text).tokens.length
            + (Listing.ofText text).diagnostics.length + escapedLineFeeds segments := by
  obtain ⟨segments, hsplits⟩ := exists_splits text.toList
  have hlines := lineFeeds_listing hsplits
  refine ⟨segments, hsplits, ?_, ?_, ?_, ?_⟩
  · intro token htoken
    exact lineFeeds_eq_zero_iff.mp (lineFeeds_of_mem_tokens htoken)
  · intro d hd
    have hline := lineFeeds_diagnostic ((problems_of_splits hsplits).1 d hd)
    rw [← not_iff_not, ← lineFeeds_eq_zero_iff, hline]
    simp
  · rw [← hlines, lineFeeds_eq_zero_iff]
    simp only [List.mem_flatMap, not_exists, not_and]
  · intro given input hquery
    refine ⟨String.join ((Listing.ofText text).lines.map (· ++ "\n")), ?_, ?_⟩
    · simp [Command.Invocation.output, hquery]
    · rw [lineFeeds_join, hlines, Listing.length_lines]

/-- A literal with a line feed after its backslash gives one token, the end, and one
problem; they are printed on three lines. -/
theorem a_problem_is_printed_on_two_lines :
    Listing.ofText "'\\\n'" = ⟨[⟨.endOfInput, 2⟩], [⟨.invalidEscape '\n', 1⟩]⟩ ∧
    ∃ output,
      Command.Invocation.output ⟨.tokens, { query := some "'\\\n'" }⟩ .terminal = .ok output ∧
      lineFeeds output.toList = 3 := by
  have hlisting : Listing.ofText "'\\\n'" = ⟨[⟨.endOfInput, 2⟩], [⟨.invalidEscape '\n', 1⟩]⟩ := by
    decide +kernel
  have htext : "'\\\n'".toList = (Segment.literal [.escape '\n']).text ++ [] := by decide
  have hone : Splits "'\\\n'".toList [.literal [.escape '\n']] := by
    rw [htext]
    exact .cons (by simp [Segment.FitsBefore, Literal.Piece.Fits]) .nil
  obtain ⟨segments, hsplits, -, -, -, hprints⟩ :=
    a_listing_breaks_a_line_only_at_an_escaped_line_feed "'\\\n'"
  obtain rfl := hsplits.unique hone
  obtain ⟨output, houtput, hfeeds⟩ := hprints { query := some "'\\\n'" } .terminal rfl
  refine ⟨hlisting, output, houtput, ?_⟩
  rw [hfeeds, hlisting]
  decide

/-- So not every line of a listing is one line. -/
theorem a_line_of_a_listing_has_a_line_feed :
    ∃ line ∈ (Listing.ofText "'\\\n'").lines, '\n' ∈ line.toList := by
  decide +kernel

end SelectQuery
