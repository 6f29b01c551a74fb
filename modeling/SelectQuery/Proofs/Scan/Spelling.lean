-- How tokens are spelled in a text. Tokens one after another, with blanks
-- between them where they would run together, are found again by the scanner
-- and nothing else is. What the scanner finds can always be spelled.
import SelectQuery.Proofs.Scan.Tokenization

namespace SelectQuery

/-! ## Tokens that can be spelled -/

/-- The kind can stand in a text: a name is a name, a number is not negative. -/
def Token.Kind.WellFormed : Token.Kind → Prop
  | .name n => isName n = true
  | .number n => 0 ≤ n
  | _ => True

theorem wellFormed_of_yields {before rest : List Char} {segment : Segment} {items : List Item}
    (h : segment.Yields before items) (hfits : segment.FitsBefore rest) :
    ∀ token ∈ tokensOf items, token.kind.WellFormed := by
  cases h with
  | blank run => simp [tokensOf]
  | keyword hk => simp [tokensOf, Item.token?, Token.Kind.WellFormed]
  | @name letters hn =>
    have hword : Keyword.ofWord? (String.ofList letters) = none := by
      rw [Option.eq_none_iff_forall_ne_some]
      intro k hk
      exact hn k ((Keyword.ofWord?_eq_some_iff _ _).mp hk)
    simp [tokensOf, Item.token?, Token.Kind.WellFormed, isName, hfits.1, hword]
  | @number run n hn =>
    have hpos : 0 ≤ n := by
      rw [Int64.le_iff_toInt_le, hn]
      exact Int.natCast_nonneg _
    simp [tokensOf, Item.token?, Token.Kind.WellFormed, hpos]
  | tooLarge hlt => simp [tokensOf, Item.token?]
  | mark m => simp [tokensOf, Item.token?, Token.Kind.WellFormed]
  | string hgood => simp [tokensOf, Item.token?, Token.Kind.WellFormed]
  | badString hmem hbad => simp [tokensOf_badEscapeItems]
  | openQuote => simp [tokensOf, Item.token?]
  | stray c => simp [tokensOf, Item.token?]

/-- All tokens of a text can be spelled. -/
theorem wellFormed_kindsOf (text : String) : ∀ kind ∈ kindsOf text, kind.WellFormed := by
  obtain ⟨items, segments, hsplits, hyields⟩ := exists_gives text
  have htokens : ∀ token ∈ tokensOf items, token.kind.WellFormed := by
    generalize text.toList = input at hsplits
    generalize ([] : List Char) = before at hyields
    induction hyields generalizing input with
    | nil before => simp [tokensOf, Item.token?, Token.Kind.WellFormed]
    | cons hitems hmore ih =>
      cases hsplits with
      | cons hfits hrest =>
        intro token hmem
        rw [tokensOf_append, List.mem_append] at hmem
        rcases hmem with hmem | hmem
        · exact wellFormed_of_yields hitems hfits token hmem
        · exact ih _ hrest token hmem
  intro kind hmem
  unfold kindsOf at hmem
  rw [tokenize_of_yields hsplits hyields] at hmem
  obtain ⟨token, htoken, rfl⟩ := List.mem_map.mp hmem
  exact htokens token htoken

/-! ## Spelled tokens -/

/-- The text up to `rest` spells tokens of the given kinds. It starts with the
first and ends with the last; only blanks stand between them. -/
inductive Spells (rest : List Char) : List Char → List Token.Kind → Prop
  | last {segment : Segment} {kind : Token.Kind} :
      segment.FitsBefore rest → segment.kind? = some kind →
      Spells rest (segment.text ++ rest) [kind]
  | next {segment : Segment} {kind : Token.Kind} {blanks more : List Char}
      {kinds : List Token.Kind} :
      segment.FitsBefore (blanks ++ more) → segment.kind? = some kind →
      (∀ c ∈ blanks, isBlank c = true) → Spells rest more kinds →
      Spells rest (segment.text ++ (blanks ++ more)) (kind :: kinds)

namespace Spells

variable {rest middle input blanks : List Char} {kinds others : List Token.Kind}

/-- A spelling goes on where another ends, after any blanks. -/
theorem append (h : Spells (blanks ++ middle) input kinds)
    (hblanks : ∀ c ∈ blanks, isBlank c = true) (h' : Spells rest middle others) :
    Spells rest input (kinds ++ others) := by
  induction h with
  | last hfits hkind => exact .next hfits hkind hblanks h'
  | next hfits hkind hgap _ ih => exact .next hfits hkind hgap ih

/-- A spelling goes on right where another ends. -/
theorem append_tight (h : Spells middle input kinds) (h' : Spells rest middle others) :
    Spells rest input (kinds ++ others) := by
  have hnone : Spells ([] ++ middle) input kinds := h
  exact hnone.append (by simp) h'

/-- A spelling goes on one space after another ends. -/
theorem append_space (h : Spells (' ' :: middle) input kinds) (h' : Spells rest middle others) :
    Spells rest input (kinds ++ others) := by
  have hspace : Spells ([' '] ++ middle) input kinds := h
  exact hspace.append (by simp [isBlank]) h'

end Spells

theorem Segment.head_of_kind {segment : Segment} {kind : Token.Kind} {rest : List Char}
    (hfits : segment.FitsBefore rest) (hkind : segment.kind? = some kind) :
    ∃ c cs, segment.text = c :: cs ∧ isBlank c = false := by
  obtain ⟨c, cs, htext⟩ := List.exists_cons_of_ne_nil (Segment.text_ne_nil hfits)
  refine ⟨c, cs, htext, ?_⟩
  cases segment with
  | word letters =>
    obtain rfl : letters = c :: cs := htext
    obtain ⟨hword, -⟩ := hfits
    simp only [isWord, Bool.and_eq_true] at hword
    exact isBlank_of_wordStart hword.1
  | digits run =>
    obtain rfl : run = c :: cs := htext
    exact isBlank_of_digit (hfits.2.1 c List.mem_cons_self)
  | mark m =>
    obtain ⟨rfl, -⟩ := List.cons.inj htext
    exact (classes_of_mark m).1
  | literal pieces =>
    obtain ⟨rfl, -⟩ := List.cons.inj htext
    decide
  | blank run => cases hkind
  | openQuote => cases hkind
  | stray d => cases hkind

/-- A spelling does not start with a blank. -/
theorem Spells.head {rest input : List Char} {kinds : List Token.Kind}
    (h : Spells rest input kinds) : ∀ c ∈ input.head?, isBlank c = false := by
  intro c hc
  cases h with
  | last hfits hkind =>
    obtain ⟨d, ds, htext, hd⟩ := Segment.head_of_kind hfits hkind
    simp only [htext, List.cons_append, List.head?_cons, Option.mem_def, Option.some.injEq] at hc
    exact hc ▸ hd
  | next hfits hkind _ _ =>
    obtain ⟨d, ds, htext, hd⟩ := Segment.head_of_kind hfits hkind
    simp only [htext, List.cons_append, List.head?_cons, Option.mem_def, Option.some.injEq] at hc
    exact hc ▸ hd

/-! ## What a spelling gives -/

/-- The text after `before` gives these tokens and no problems. -/
def GivesTokens (before input : List Char) (tokens : List Token) : Prop :=
  ∃ segments items, Splits input segments ∧ Yields before segments items ∧
    diagnosticsOf items = [] ∧ tokensOf items = tokens

theorem givesTokens_nil (before : List Char) :
    GivesTokens before [] [⟨.endOfInput, 1 + lineFeeds before⟩] :=
  ⟨[], _, .nil, .nil before, rfl, rfl⟩

theorem GivesTokens.blanks {before blanks input : List Char} {tokens : List Token}
    (hblanks : ∀ c ∈ blanks, isBlank c = true) (hhead : ∀ c ∈ input.head?, isBlank c = false)
    (h : GivesTokens (before ++ blanks) input tokens) :
    GivesTokens before (blanks ++ input) tokens := by
  by_cases hne : blanks = []
  · simpa [hne] using h
  · obtain ⟨segments, items, hsplits, hyields, hclean, htokens⟩ := h
    have hfits : (Segment.blank blanks).FitsBefore input := ⟨hne, hblanks, hhead⟩
    exact ⟨.blank blanks :: segments, [] ++ items, .cons hfits hsplits,
      .cons (.blank blanks) hyields, hclean, htokens⟩

theorem GivesTokens.token {segment : Segment} {kind : Token.Kind} {before input : List Char}
    {tokens : List Token} (hfits : segment.FitsBefore input)
    (hkind : segment.kind? = some kind)
    (h : GivesTokens (before ++ segment.text) input tokens) :
    GivesTokens before (segment.text ++ input) (⟨kind, 1 + lineFeeds before⟩ :: tokens) := by
  obtain ⟨segments, items, hsplits, hyields, hclean, htokens⟩ := h
  obtain ⟨first, hfirst⟩ := segment.exists_yields before
  obtain ⟨rfl, -⟩ := hfirst.of_kind hkind
  refine ⟨segment :: segments, _, .cons hfits hsplits, .cons hfirst hyields, ?_, ?_⟩
  · rw [diagnosticsOf_append, hclean]
    rfl
  · rw [tokensOf_append, htokens]
    rfl

theorem tokenize_of_givesTokens {text : String} {tokens : List Token}
    (h : GivesTokens [] text.toList tokens) : tokenize text = (tokens, []) := by
  obtain ⟨segments, items, hsplits, hyields, hclean, rfl⟩ := h
  rw [tokenize_of_yields hsplits hyields, hclean]

/-- The text gives no problems, and tokens of the given kinds before the end. -/
def GivesOnly (before input : List Char) (kinds : List Token.Kind) : Prop :=
  ∃ segments items, Splits input segments ∧ Yields before segments items ∧
    diagnosticsOf items = [] ∧ (tokensOf items).map Token.kind = kinds ++ [.endOfInput]

theorem givesOnly_iff (before input : List Char) (kinds : List Token.Kind) :
    GivesOnly before input kinds ↔
      ∃ tokens, GivesTokens before input tokens ∧
        tokens.map Token.kind = kinds ++ [.endOfInput] := by
  constructor
  · rintro ⟨segments, items, hsplits, hyields, hclean, hkinds⟩
    exact ⟨_, ⟨segments, items, hsplits, hyields, hclean, rfl⟩, hkinds⟩
  · rintro ⟨tokens, ⟨segments, items, hsplits, hyields, hclean, rfl⟩, hkinds⟩
    exact ⟨segments, items, hsplits, hyields, hclean, hkinds⟩

theorem givesOnly_nil (before : List Char) : GivesOnly before [] [] :=
  (givesOnly_iff _ _ _).mpr ⟨_, givesTokens_nil before, rfl⟩

theorem GivesOnly.blanks {blanks input : List Char} {kinds : List Token.Kind}
    (hblanks : ∀ c ∈ blanks, isBlank c = true) (hhead : ∀ c ∈ input.head?, isBlank c = false)
    (h : ∀ before, GivesOnly before input kinds) (before : List Char) :
    GivesOnly before (blanks ++ input) kinds := by
  obtain ⟨tokens, htokens, hkinds⟩ := (givesOnly_iff _ _ _).mp (h (before ++ blanks))
  exact (givesOnly_iff _ _ _).mpr ⟨tokens, htokens.blanks hblanks hhead, hkinds⟩

theorem GivesOnly.token {segment : Segment} {kind : Token.Kind} {input : List Char}
    {kinds : List Token.Kind} (hfits : segment.FitsBefore input)
    (hkind : segment.kind? = some kind) (h : ∀ before, GivesOnly before input kinds)
    (before : List Char) : GivesOnly before (segment.text ++ input) (kind :: kinds) := by
  obtain ⟨tokens, htokens, hkinds⟩ := (givesOnly_iff _ _ _).mp (h (before ++ segment.text))
  exact (givesOnly_iff _ _ _).mpr ⟨_, htokens.token hfits hkind, by simp [hkinds]⟩

/-- A spelling gives its tokens and no problems, with any blanks after it. -/
theorem Spells.givesOnly {rest input : List Char} {kinds : List Token.Kind}
    (h : Spells rest input kinds) (hrest : ∀ c ∈ rest, isBlank c = true) (before : List Char) :
    GivesOnly before input kinds := by
  have hend : ∀ before, GivesOnly before rest [] := by
    intro before
    have hblanks := GivesOnly.blanks hrest (by simp) givesOnly_nil before
    rwa [List.append_nil] at hblanks
  induction h generalizing before with
  | last hfits hkind => exact GivesOnly.token hfits hkind hend before
  | next hfits hkind hblanks hmore ih =>
    exact GivesOnly.token hfits hkind (GivesOnly.blanks hblanks hmore.head ih) before

/-- A text that spells tokens has these tokens and no problems. -/
theorem kindsOf_of_spells {text : String} {kinds : List Token.Kind}
    (h : Spells [] text.toList kinds) :
    (tokenize text).2 = [] ∧ kindsOf text = kinds ++ [.endOfInput] := by
  obtain ⟨tokens, htokens, hkinds⟩ := (givesOnly_iff _ _ _).mp (h.givesOnly (by simp) [])
  unfold kindsOf
  rw [tokenize_of_givesTokens htokens]
  exact ⟨rfl, hkinds⟩

/-! ## The spelling of each token -/

/-- No word or number before the text goes on into it. -/
def Apart (rest : List Char) : Prop :=
  ∀ c ∈ rest.head?, isWordPart c = false

theorem apart_nil : Apart [] := by
  simp [Apart]

theorem apart_cons {c : Char} (h : isWordPart c = false) (rest : List Char) :
    Apart (c :: rest) := by
  simp [Apart, h]

theorem isDigit_of_not_part {c : Char} (h : isWordPart c = false) : c.isDigit = false := by
  simp only [isWordPart, Char.isAlphanum, Bool.or_eq_false_iff] at h
  exact h.1.2

/-- The letters right before `rest` are scanned as one token of a kind. -/
def ScansAs (rest letters : List Char) (kind : Token.Kind) : Prop :=
  ∃ segment : Segment, segment.text = letters ∧ segment.FitsBefore rest ∧
    segment.kind? = some kind

theorem ScansAs.spells {rest letters : List Char} {kind : Token.Kind}
    (h : ScansAs rest letters kind) : Spells rest (letters ++ rest) [kind] := by
  obtain ⟨segment, rfl, hfits, hkind⟩ := h
  exact .last hfits hkind

theorem isWord_of_isName {n : String} (h : isName n = true) : isWord n.toList = true := by
  unfold isName at h
  rw [Bool.and_eq_true] at h
  exact h.1

theorem scansAs_name {n : String} (h : isName n = true) {rest : List Char} (hrest : Apart rest) :
    ScansAs rest n.toList (.name n) := by
  refine ⟨.word n.toList, rfl, ⟨isWord_of_isName h, hrest⟩, ?_⟩
  simp [Segment.kind?, Token.Kind.ofWord_eq_name h]

theorem isAlpha_of_toUpper {c : Char} (h : c.toUpper.isUpper = true) : c.isAlpha = true := by
  unfold Char.toUpper at h
  split at h
  · rename_i hlower
    have hletter : c.isLower = true :=
      Bool.and_eq_true_iff.mpr ⟨decide_eq_true hlower.1, decide_eq_true hlower.2⟩
    exact Bool.or_eq_true_iff.mpr (Or.inr hletter)
  · exact Bool.or_eq_true_iff.mpr (Or.inl h)

/-- A reserved word is a word in any mix of letter cases. -/
theorem isWord_of_toUpper {k : Keyword} {letters : List Char}
    (h : letters.map Char.toUpper = k.spelling.toList) : isWord letters = true := by
  have hletters : ∀ c ∈ letters, c.isAlpha = true := by
    intro c hc
    have hspelling : k.spelling.toList.all Char.isUpper = true := by cases k <;> decide
    exact isAlpha_of_toUpper (List.all_eq_true.mp hspelling _ (h ▸ List.mem_map_of_mem hc))
  cases letters with
  | nil => cases k <;> simp [Keyword.spelling] at h
  | cons c cs =>
    simp only [isWord, isWordStart, isWordPart, Char.isAlphanum, Bool.and_eq_true,
      List.all_eq_true, Bool.or_eq_true]
    exact ⟨Or.inl (hletters c List.mem_cons_self), fun d hd =>
      Or.inl (Or.inl (hletters d (List.mem_cons_of_mem _ hd)))⟩

theorem scansAs_keyword {k : Keyword} {letters : List Char}
    (h : letters.map Char.toUpper = k.spelling.toList) {rest : List Char} (hrest : Apart rest) :
    ScansAs rest letters (.keyword k) := by
  have hupper : (String.ofList letters).toUpper = k.spelling := by
    rw [← String.toList_inj, String.toUpper, String.toList_map, String.toList_ofList, h]
  refine ⟨.word letters, rfl, ⟨isWord_of_toUpper h, hrest⟩, ?_⟩
  simp [Segment.kind?, Token.Kind.ofWord, (Keyword.ofWord?_eq_some_iff _ _).mpr hupper]

theorem scansAs_mark (m : Mark) (rest : List Char) : ScansAs rest [m.char] (.mark m) :=
  ⟨.mark m, rfl, trivial, rfl⟩

/-- The pieces of the literal with a given content. -/
def Literal.piecesOf (value : String) : List Piece :=
  value.toList.map Piece.ofChar

theorem Literal.toList_write (value : String) : (write value).toList = text (piecesOf value) := by
  unfold write
  exact String.toList_ofList

theorem Literal.fits_piecesOf (value : String) : ∀ p ∈ piecesOf value, p.Fits := by
  intro p hp
  obtain ⟨c, -, rfl⟩ := List.mem_map.mp hp
  exact Piece.fits_ofChar c

/-- Unescaping undoes escaping. -/
theorem Literal.value?_piecesOf (value : String) : value? (piecesOf value) = some value := by
  unfold value? piecesOf
  rw [if_pos (by simp)]
  simp [Function.comp_def]

theorem scansAs_string (s : String) (rest : List Char) :
    ScansAs rest (Literal.write s).toList (.string s) := by
  rw [Literal.toList_write]
  refine ⟨.literal (Literal.piecesOf s), rfl, Literal.fits_piecesOf s, ?_⟩
  simp [Segment.kind?, Literal.value?_piecesOf]

/-- A number is scanned with any zeros before it, up to the next character that
is no digit. -/
theorem scansAs_number {n : Int64} (h : 0 ≤ n) (zeros : Nat) {rest : List Char}
    (hrest : ∀ c ∈ rest.head?, c.isDigit = false) :
    ScansAs rest (List.replicate zeros '0' ++ (toString n.toInt).toList) (.number n) := by
  obtain ⟨m, hm⟩ : ∃ m : Nat, n.toInt = m := by
    rw [Int64.le_iff_toInt_le] at h
    exact Int.eq_ofNat_of_zero_le h
  have htext : (toString n.toInt).toList = Nat.toDigits 10 m := by
    rw [hm]
    exact Nat.toList_repr
  rw [htext]
  have hfits : (Segment.digits (List.replicate zeros '0' ++ Nat.toDigits 10 m)).FitsBefore rest := by
    refine ⟨by simp [Nat.toDigits_ne_nil], ?_, hrest⟩
    intro c hc
    rcases List.mem_append.mp hc with hc | hc
    · rw [List.eq_of_mem_replicate hc]
      rfl
    · exact Nat.isDigit_of_mem_toDigits (by decide) (by decide) hc
  have hvalue : numberOf? (List.replicate zeros '0' ++ Nat.toDigits 10 m) = some n := by
    rw [numberOf?_eq_some_iff, Nat.ofDigitChars_append, Nat.ofDigitChars_replicate_zero,
      Nat.mul_zero, Nat.ofDigitChars_ten_toDigits, hm]
  exact ⟨_, rfl, hfits, by simp [Segment.kind?, hvalue]⟩

theorem spells_name {n : String} (h : isName n = true) {rest : List Char} (hrest : Apart rest) :
    Spells rest (n.toList ++ rest) [.name n] :=
  (scansAs_name h hrest).spells

theorem spells_keyword (k : Keyword) {rest : List Char} (hrest : Apart rest) :
    Spells rest (k.spelling.toList ++ rest) [.keyword k] :=
  (scansAs_keyword (by cases k <;> decide) hrest).spells

theorem spells_mark (m : Mark) (rest : List Char) : Spells rest (m.char :: rest) [.mark m] :=
  (scansAs_mark m rest).spells

theorem spells_string (s : String) (rest : List Char) :
    Spells rest ((Literal.write s).toList ++ rest) [.string s] :=
  (scansAs_string s rest).spells

theorem spells_number {n : Int64} (h : 0 ≤ n) {rest : List Char} (hrest : Apart rest) :
    Spells rest ((toString n.toInt).toList ++ rest) [.number n] :=
  (scansAs_number h 0 fun c hc => isDigit_of_not_part (hrest c hc)).spells

end SelectQuery
