-- Texts that spell a list of tokens. Letter cases, leading zeros and blanks are
-- free, as long as blanks stand where two tokens would run into each other. All
-- of these texts have the same tokens and no problems, so they are read alike
-- but for the lines of errors.
import SelectQuery.Proofs.Query.Parsing
import SelectQuery.Proofs.Scan.Spelling
import Mathlib.Data.List.Chain

namespace SelectQuery

/-! ## How tokens are written -/

namespace Token.Kind

/-- The letters with which a token of a kind can be written. -/
inductive WrittenAs : Token.Kind → List Char → Prop
  | keyword {k : Keyword} {letters : List Char}
      (h : letters.map Char.toUpper = k.spelling.toList) : WrittenAs (.keyword k) letters
  | name {n : String} (h : isName n = true) : WrittenAs (.name n) n.toList
  | number {n : Int64} (h : 0 ≤ n) (zeros : Nat) :
      WrittenAs (.number n) (List.replicate zeros '0' ++ (toString n.toInt).toList)
  | string (s : String) : WrittenAs (.string s) (Literal.write s).toList
  | mark (m : Mark) : WrittenAs (.mark m) [m.char]

/-- The second token would go on the first if it stood right after it. -/
def runsInto : Token.Kind → Token.Kind → Bool
  | .keyword _, .keyword _ => true
  | .keyword _, .name _ => true
  | .keyword _, .number _ => true
  | .name _, .keyword _ => true
  | .name _, .name _ => true
  | .name _, .number _ => true
  | .number _, .number _ => true
  | _, _ => false

/-- A token of the kind ends before the text: its first character would not go on
the token. -/
def EndsBefore (rest : List Char) : Token.Kind → Prop
  | .keyword _ => Apart rest
  | .name _ => Apart rest
  | .number _ => ∀ c ∈ rest.head?, c.isDigit = false
  | _ => True

theorem scansAs_of_writtenAs {kind : Token.Kind} {letters rest : List Char}
    (h : kind.WrittenAs letters) (hrest : kind.EndsBefore rest) : ScansAs rest letters kind := by
  cases h with
  | keyword hk => exact scansAs_keyword hk hrest
  | name hn => exact scansAs_name hn hrest
  | number hn zeros => exact scansAs_number hn zeros hrest
  | string s => exact scansAs_string s rest
  | mark m => exact scansAs_mark m rest

/-- Any token ends before a text that no word goes on into. -/
theorem endsBefore_of_apart {rest : List Char} (h : Apart rest) (kind : Token.Kind) :
    kind.EndsBefore rest := by
  cases kind with
  | keyword k => exact h
  | name n => exact h
  | number n => exact fun c hc => isDigit_of_not_part (h c hc)
  | _ => trivial

theorem apart_of_blank {c : Char} (h : isBlank c = true) (rest : List Char) :
    Apart (c :: rest) := by
  apply apart_cons
  exact isWordPart_of_blank h

/-- A token ends right before another that does not run into it. -/
theorem endsBefore_of_writtenAs {left right : Token.Kind} {letters : List Char}
    (h : right.WrittenAs letters) (hapart : left.runsInto right = false) (rest : List Char) :
    left.EndsBefore (letters ++ rest) := by
  -- A word may stand right after a number, as its first letter is no digit.
  have hword : isWord letters = true → ∀ c ∈ (letters ++ rest).head?, c.isDigit = false := by
    intro hw c hc
    cases letters with
    | nil => simp [isWord] at hw
    | cons d ds =>
      obtain rfl : d = c := by simpa using hc
      simp only [isWord, Bool.and_eq_true] at hw
      by_contra hdigit
      rw [isWordStart_of_digit (by simpa using hdigit)] at hw
      exact absurd hw.1 (by decide)
  cases h with
  | keyword hk =>
    cases left with
    | number n => exact hword (isWord_of_toUpper hk)
    | keyword k => simp [runsInto] at hapart
    | name n => simp [runsInto] at hapart
    | _ => trivial
  | name hn =>
    cases left with
    | number n => exact hword (isWord_of_isName hn)
    | keyword k => simp [runsInto] at hapart
    | name n => simp [runsInto] at hapart
    | _ => trivial
  | number hn zeros =>
    cases left with
    | number n => simp [runsInto] at hapart
    | keyword k => simp [runsInto] at hapart
    | name n => simp [runsInto] at hapart
    | _ => trivial
  | string s =>
    apply endsBefore_of_apart
    simp only [Literal.write, Literal.text, String.toList_ofList]
    exact apart_cons (by decide) _
  | mark m => exact endsBefore_of_apart (apart_cons (classes_of_mark m).2.1 _) left

/-- The tokens that can be written are those that can be spelled, but for the end
of the query. -/
theorem exists_writtenAs_iff (kind : Token.Kind) :
    (∃ letters, kind.WrittenAs letters) ↔ kind ≠ .endOfInput ∧ kind.WellFormed := by
  constructor
  · rintro ⟨letters, h⟩
    cases h with
    | keyword hk => exact ⟨by simp, trivial⟩
    | name hn => exact ⟨by simp, hn⟩
    | number hn zeros => exact ⟨by simp, hn⟩
    | string s => exact ⟨by simp, trivial⟩
    | mark m => exact ⟨by simp, trivial⟩
  · rintro ⟨hne, h⟩
    cases kind with
    | keyword k => exact ⟨k.spelling.toList, .keyword (by cases k <;> decide)⟩
    | name n => exact ⟨_, .name h⟩
    | number n => exact ⟨_, .number h 0⟩
    | string s => exact ⟨_, .string s⟩
    | mark m => exact ⟨_, .mark m⟩
    | endOfInput => exact absurd rfl hne

end Token.Kind

/-! ## Renderings -/

/-- A token as it is written, with the blanks after it. -/
structure Written where
  kind : Token.Kind
  letters : List Char
  blanks : List Char
  writtenAs : kind.WrittenAs letters
  blank : ∀ c ∈ blanks, isBlank c = true

/-- The token and the blanks after it. -/
def Written.text (word : Written) : List Char :=
  word.letters ++ word.blanks

/-- Blanks part the two tokens where the second would run into the first. -/
def Written.PartedFrom (left right : Written) : Prop :=
  left.kind.runsInto right.kind = true → left.blanks ≠ []

/-- A way of writing tokens: blanks, and then the tokens with the blanks after
each of them. -/
structure Rendering where
  lead : List Char
  lead_blank : ∀ c ∈ lead, isBlank c = true
  words : List Written
  parted : words.IsChain Written.PartedFrom

namespace Rendering

/-- The kinds of the tokens that are written. -/
def kinds (rendering : Rendering) : List Token.Kind :=
  rendering.words.map Written.kind

/-- The text that is written. -/
def text (rendering : Rendering) : String :=
  String.ofList (rendering.lead ++ rendering.words.flatMap Written.text)

/-- The tokens of words after `before`, and the end of the query. Each is on the
line of its place: 1 and the line feeds before it. -/
def tokensAfter (before : List Char) : List Written → List Token
  | [] => [⟨.endOfInput, 1 + lineFeeds before⟩]
  | word :: words => ⟨word.kind, 1 + lineFeeds before⟩ :: tokensAfter (before ++ word.text) words

/-- The tokens that are written, each on its line. -/
def tokens (rendering : Rendering) : List Token :=
  tokensAfter rendering.lead rendering.words

theorem map_kind_tokensAfter (before : List Char) (words : List Written) :
    (tokensAfter before words).map Token.kind = words.map Written.kind ++ [.endOfInput] := by
  induction words generalizing before with
  | nil => rfl
  | cons word words ih => simp [tokensAfter, ih]

/-! ## What a rendering gives -/

/-- A token ends before the words after it. -/
theorem endsBefore_words {word : Written} {words : List Written}
    (h : (word :: words).IsChain Written.PartedFrom) :
    word.kind.EndsBefore (word.blanks ++ words.flatMap Written.text) := by
  by_cases hblanks : word.blanks = []
  · rw [hblanks, List.nil_append]
    cases words with
    | nil => exact Token.Kind.endsBefore_of_apart apart_nil _
    | cons next words =>
      have hparted := (List.isChain_cons_cons.mp h).1
      have hapart : word.kind.runsInto next.kind = false := by
        by_contra hruns
        exact hparted (by simpa using hruns) hblanks
      rw [List.flatMap_cons, Written.text, List.append_assoc]
      exact Token.Kind.endsBefore_of_writtenAs next.writtenAs hapart _
  · obtain ⟨c, cs, heq⟩ := List.exists_cons_of_ne_nil hblanks
    have hc := word.blank c (heq ▸ List.mem_cons_self)
    rw [heq, List.cons_append]
    exact Token.Kind.endsBefore_of_apart (Token.Kind.apart_of_blank hc _) _

/-- Words do not start with a blank. -/
theorem head_words (words : List Written) :
    ∀ c ∈ (words.flatMap Written.text).head?, isBlank c = false := by
  intro c hc
  cases words with
  | nil => cases hc
  | cons word words =>
    obtain ⟨segment, htext, hfits, hkind⟩ :=
      Token.Kind.scansAs_of_writtenAs word.writtenAs (Token.Kind.endsBefore_of_apart apart_nil _)
    obtain ⟨d, ds, hcons, hd⟩ := Segment.head_of_kind hfits hkind
    rw [List.flatMap_cons, Written.text, ← htext, hcons] at hc
    obtain rfl : d = c := by simpa using hc
    exact hd

/-- Words that are parted give their tokens, each on its line. -/
theorem givesTokens_words {words : List Written} (h : words.IsChain Written.PartedFrom)
    (before : List Char) :
    GivesTokens before (words.flatMap Written.text) (tokensAfter before words) := by
  induction words generalizing before with
  | nil => exact givesTokens_nil before
  | cons word words ih =>
    obtain ⟨segment, htext, hfits, hkind⟩ :=
      Token.Kind.scansAs_of_writtenAs word.writtenAs (endsBefore_words h)
    have hmore := ih (List.isChain_cons.mp h).2 ((before ++ segment.text) ++ word.blanks)
    have hall := (hmore.blanks word.blank (head_words words)).token hfits hkind
    rw [htext] at hall
    simpa [tokensAfter, Written.text] using hall

/-- The text of a rendering has its tokens and no problems. -/
theorem tokenize_text (rendering : Rendering) :
    tokenize rendering.text = (rendering.tokens, []) := by
  apply tokenize_of_givesTokens
  unfold text
  rw [String.toList_ofList]
  exact (givesTokens_words rendering.parted _).blanks rendering.lead_blank (head_words _)

/-- There is a rendering of tokens exactly if each of them can be spelled and none
is the end of the query. -/
theorem exists_rendering_iff (kinds : List Token.Kind) :
    (∃ rendering : Rendering, rendering.kinds = kinds) ↔
      ∀ kind ∈ kinds, kind ≠ .endOfInput ∧ kind.WellFormed := by
  constructor
  · rintro ⟨rendering, rfl⟩ kind hmem
    obtain ⟨word, -, rfl⟩ := List.mem_map.mp hmem
    exact (Token.Kind.exists_writtenAs_iff _).mp ⟨_, word.writtenAs⟩
  · intro h
    -- One space after each token is enough.
    suffices hwords : ∃ words : List Written, words.map Written.kind = kinds ∧
        words.IsChain Written.PartedFrom by
      obtain ⟨words, rfl, hparted⟩ := hwords
      exact ⟨⟨[], by simp, words, hparted⟩, rfl⟩
    induction kinds with
    | nil => exact ⟨[], rfl, .nil⟩
    | cons kind kinds ih =>
      obtain ⟨letters, hletters⟩ :=
        (Token.Kind.exists_writtenAs_iff kind).mpr (h kind List.mem_cons_self)
      obtain ⟨words, rfl, hparted⟩ := ih fun k hk => h k (List.mem_cons_of_mem _ hk)
      let word : Written := ⟨kind, letters, [' '], hletters, by simp [isBlank]⟩
      have hspace : ∀ next, word.PartedFrom next := fun _ _ => by simp [word]
      exact ⟨word :: words, rfl, List.isChain_cons.mpr ⟨fun next _ => hspace next, hparted⟩⟩

end Rendering

/-! ## Reading up to lines -/

/-- The error without its lines. -/
def ParseError.unlined : ParseError → ParseError
  | lexical diagnostics => lexical (diagnostics.map fun d => { d with line := 0 })
  | unexpected expected found _ => unexpected expected found 0
  | emptyColumns found _ => emptyColumns found 0

theorem unlined_pointTo {fault : Fault} {token : Token} (h : token.kind = fault.found.kind) :
    (ParseError.ofFault (fault.pointTo token)).unlined = (ParseError.ofFault fault).unlined := by
  cases fault with
  | unexpected expected found =>
    have hkind : token.kind = found.kind := h
    simp [Fault.pointTo, ParseError.ofFault, ParseError.unlined, hkind]
  | noColumns found =>
    have hkind : token.kind = found.kind := h
    simp [Fault.pointTo, ParseError.ofFault, ParseError.unlined, hkind]

theorem kind_tokenAt (text : String) (i : Nat) :
    (tokenAt (Reader.ofText text) i).kind = (kindsOf text)[i]?.getD .endOfInput := by
  rw [tokenAt_ofTokens]
  unfold TokenList.ofTokens kindsOf
  rw [TokenList.tokenAt_eq, List.getElem?_map]
  cases (tokenize text).1[i]? <;> rfl

/-- A text without problems is read as the grammar makes of its tokens. -/
theorem parse_of_clean {text : String} (h : (tokenize text).2 = []) :
    parse text = (Grammar.query.run (Reader.ofText text)).1.mapError ParseError.ofFault := by
  obtain ⟨k, problems, -, -, hprefix, -, hrecorded, -⟩ := exists_stop text
  rw [h] at hprefix
  rw [parse_eq, hrecorded, if_pos (List.prefix_nil.mp hprefix)]

/-- Texts without problems that have tokens of the same kinds are read alike, but
for the lines of errors. -/
theorem parse_unlined {a b : String} (hkinds : kindsOf a = kindsOf b)
    (ha : (tokenize a).2 = []) (hb : (tokenize b).2 = []) :
    (parse a).mapError ParseError.unlined = (parse b).mapError ParseError.unlined := by
  have hmatches : (Grammar.query : Rule Reader Statement).MatchesAt
      (Grammar.query : Rule Reader Statement) (Reader.ofText a) := Grammar.matchesAt_query _
  obtain ⟨k, -, hfound, hruns⟩ := hmatches
  have hsame : ∀ i, (tokenAt (Reader.ofText a) i).kind = (tokenAt (Reader.ofText b) i).kind := by
    intro i
    rw [kind_tokenAt, kind_tokenAt, hkinds]
  rw [parse_of_clean ha, parse_of_clean hb, hruns (Reader.ofText b) fun i _ => hsame i]
  rcases hrun : (Grammar.query.run (Reader.ofText a)).1 with fault | s
  · have hkind : (tokenAt (Reader.ofText b) k).kind = fault.found.kind := by
      rw [hfound fault hrun, hsame k]
    exact congrArg Except.error (unlined_pointTo hkind).symm
  · rfl

/-! ## The law -/

/-- Tokens that can be spelled, without the end of the query, have renderings. The
text of each of them has these tokens and then the end, each on its line, and no
problems. Two renderings of the same tokens are read alike, but for the lines of
errors. -/
theorem renderings_of_the_same_tokens_are_read_alike (kinds : List Token.Kind) :
    ((∃ rendering : Rendering, rendering.kinds = kinds) ↔
      ∀ kind ∈ kinds, kind ≠ .endOfInput ∧ kind.WellFormed) ∧
    (∀ rendering : Rendering, rendering.kinds = kinds →
      tokenize rendering.text = (rendering.tokens, []) ∧
      rendering.tokens.map Token.kind = kinds ++ [.endOfInput]) ∧
    ∀ rendering other : Rendering, rendering.kinds = kinds → other.kinds = kinds →
      (parse rendering.text).mapError ParseError.unlined =
        (parse other.text).mapError ParseError.unlined := by
  have hkinds : ∀ rendering : Rendering,
      rendering.tokens.map Token.kind = rendering.kinds ++ [.endOfInput] :=
    fun rendering => Rendering.map_kind_tokensAfter _ _
  refine ⟨Rendering.exists_rendering_iff kinds, ?_, ?_⟩
  · rintro rendering rfl
    exact ⟨rendering.tokenize_text, hkinds rendering⟩
  · rintro rendering other rfl hother
    apply parse_unlined
    · unfold kindsOf
      rw [rendering.tokenize_text, other.tokenize_text, hkinds, hkinds, hother]
    · rw [rendering.tokenize_text]
    · rw [other.tokenize_text]

end SelectQuery
