-- What is to be found in a text: tokens and problems, each with the text that
-- lies before it. The rules here are read off the segments alone; that the
-- scanner keeps to them is shown elsewhere.
import SelectQuery.Proofs.Scan.Segmentation

namespace SelectQuery

/-! ## Items -/

/-- A token or a problem at a place of a text. -/
structure Item where
  /-- The text before the place. -/
  before : List Char
  /-- What stands there. -/
  content : Token.Kind ⊕ Diagnostic.Cause

namespace Item

/-- The line of the place: 1 and the line feeds before it. -/
def line (item : Item) : Nat :=
  1 + lineFeeds item.before

/-- The number of characters before the place. -/
def place (item : Item) : Nat :=
  item.before.length

/-- The token at the place, if it is one. -/
def token? (item : Item) : Option Token :=
  match item.content with
  | .inl kind => some ⟨kind, item.line⟩
  | .inr _ => none

/-- The problem at the place, if it is one. -/
def diagnostic? (item : Item) : Option Diagnostic :=
  match item.content with
  | .inl _ => none
  | .inr cause => some ⟨cause, item.line⟩

end Item

/-- The tokens among items. -/
def tokensOf (items : List Item) : List Token :=
  items.filterMap Item.token?

/-- The problems among items. -/
def diagnosticsOf (items : List Item) : List Diagnostic :=
  items.filterMap Item.diagnostic?

@[simp]
theorem tokensOf_append (xs ys : List Item) : tokensOf (xs ++ ys) = tokensOf xs ++ tokensOf ys := by
  simp [tokensOf]

@[simp]
theorem diagnosticsOf_append (xs ys : List Item) :
    diagnosticsOf (xs ++ ys) = diagnosticsOf xs ++ diagnosticsOf ys := by
  simp [diagnosticsOf]

/-! ## What a segment gives -/

/-- The improper escapes among the pieces of a literal, in order, each at its
backslash. -/
def badEscapeItems (before : List Char) : List Literal.Piece → List Item
  | [] => []
  | .plain c :: pieces => badEscapeItems (before ++ [c]) pieces
  | .escape c :: pieces =>
    (if c = '\'' ∨ c = '\\' then [] else [⟨before, .inr (.invalidEscape c)⟩])
      ++ badEscapeItems (before ++ ['\\', c]) pieces

/-- A segment that stands after `before` gives these items. -/
inductive Segment.Yields (before : List Char) : Segment → List Item → Prop
  | blank (run : List Char) : Yields before (.blank run) []
  | keyword {letters : List Char} {k : Keyword}
      (h : (String.ofList letters).toUpper = k.spelling) :
      Yields before (.word letters) [⟨before, .inl (.keyword k)⟩]
  | name {letters : List Char}
      (h : ∀ k : Keyword, (String.ofList letters).toUpper ≠ k.spelling) :
      Yields before (.word letters) [⟨before, .inl (.name (String.ofList letters))⟩]
  | number {run : List Char} {n : Int64} (h : n.toInt = Nat.ofDigitChars 10 run 0) :
      Yields before (.digits run) [⟨before, .inl (.number n)⟩]
  | tooLarge {run : List Char} (h : largestNumber < Nat.ofDigitChars 10 run 0) :
      Yields before (.digits run) [⟨before, .inr (.numberOutOfRange (String.ofList run))⟩]
  | mark (m : Mark) : Yields before (.mark m) [⟨before, .inl (.mark m)⟩]
  | string {pieces : List Literal.Piece}
      (h : ∀ c, .escape c ∈ pieces → c = '\'' ∨ c = '\\') :
      Yields before (.literal pieces)
        [⟨before, .inl (.string (String.ofList (pieces.map Literal.Piece.char)))⟩]
  | badString {pieces : List Literal.Piece} {c : Char} (hmem : .escape c ∈ pieces)
      (hbad : ¬ (c = '\'' ∨ c = '\\')) :
      Yields before (.literal pieces) (badEscapeItems (before ++ ['\'']) pieces)
  | openQuote : Yields before .openQuote [⟨before, .inr .unterminatedString⟩]
  | stray (c : Char) : Yields before (.stray c) [⟨before, .inr (.illegalCharacter c)⟩]

/-- Segments one after another, the first after `before`, give these items. The
last item is the end of the query. -/
inductive Yields : List Char → List Segment → List Item → Prop
  | nil (before : List Char) : Yields before [] [⟨before, .inl .endOfInput⟩]
  | cons {before : List Char} {segment : Segment} {segments : List Segment}
      {items more : List Item} :
      segment.Yields before items → Yields (before ++ segment.text) segments more →
      Yields before (segment :: segments) (items ++ more)

/-! ## The rules against the functions of segments -/

theorem isValid_eq_true_iff (piece : Literal.Piece) :
    piece.isValid = true ↔ ∀ c, piece = .escape c → c = '\'' ∨ c = '\\' := by
  cases piece with
  | plain c => simp [Literal.Piece.isValid]
  | escape c => simp [Literal.Piece.isValid, Literal.isSpecial]

theorem value?_eq_some {pieces : List Literal.Piece}
    (h : ∀ c, .escape c ∈ pieces → c = '\'' ∨ c = '\\') :
    Literal.value? pieces = some (String.ofList (pieces.map Literal.Piece.char)) := by
  unfold Literal.value?
  rw [if_pos]
  rw [List.all_eq_true]
  intro piece hmem
  rw [isValid_eq_true_iff]
  rintro c rfl
  exact h c hmem

theorem value?_eq_none {pieces : List Literal.Piece} {c : Char} (hmem : .escape c ∈ pieces)
    (hbad : ¬ (c = '\'' ∨ c = '\\')) : Literal.value? pieces = none := by
  unfold Literal.value?
  rw [if_neg]
  rw [List.all_eq_true]
  intro hall
  exact hbad ((isValid_eq_true_iff _).mp (hall _ hmem) c rfl)

theorem badEscapes_of_valid {pieces : List Literal.Piece} {value : String}
    (h : Literal.value? pieces = some value) (line : Nat) :
    Literal.badEscapes line pieces = [] := by
  unfold Literal.value? at h
  split at h
  · rename_i hall
    clear h
    induction pieces generalizing line with
    | nil => rfl
    | cons p ps ih =>
      simp only [List.all_cons, Bool.and_eq_true] at hall
      simp only [Literal.badEscapes, hall.1, if_true]
      exact ih _ hall.2
  · cases h

theorem tokensOf_badEscapeItems (before : List Char) (pieces : List Literal.Piece) :
    tokensOf (badEscapeItems before pieces) = [] := by
  induction pieces generalizing before with
  | nil => rfl
  | cons p ps ih =>
    cases p with
    | plain c => exact ih _
    | escape c =>
      simp only [badEscapeItems, tokensOf_append, ih, List.append_nil]
      split <;> rfl

theorem diagnosticsOf_badEscapeItems (before : List Char) (pieces : List Literal.Piece) :
    diagnosticsOf (badEscapeItems before pieces) =
      (Literal.badEscapes (1 + lineFeeds before) pieces).map
        fun bad => ⟨.invalidEscape bad.1, bad.2⟩ := by
  induction pieces generalizing before with
  | nil => rfl
  | cons p ps ih =>
    -- The line of the next piece counts the line feeds of this one.
    have hline : 1 + lineFeeds (before ++ p.text) = 1 + lineFeeds before + lineFeeds p.text := by
      simp [Nat.add_assoc]
    cases p with
    | plain c =>
      simp only [badEscapeItems, Literal.badEscapes, Literal.Piece.isValid, if_true]
      rw [← hline]
      exact ih _
    | escape c =>
      simp only [badEscapeItems, diagnosticsOf_append, Literal.badEscapes]
      rw [← hline]
      have hrest := ih (before ++ ['\\', c])
      by_cases hc : c = '\'' ∨ c = '\\'
      · have hvalid : (Literal.Piece.escape c).isValid = true := by
          simpa [Literal.Piece.isValid, Literal.isSpecial] using hc
        simp only [hc, hvalid, if_true]
        exact hrest
      · have hvalid : (Literal.Piece.escape c).isValid = false := by
          simpa [Literal.Piece.isValid, Literal.isSpecial] using hc
        simp only [hc, hvalid, if_false, Bool.false_eq_true, List.map_cons]
        rw [hrest]
        rfl

theorem numberOf?_eq_some_iff (run : List Char) (n : Int64) :
    numberOf? run = some n ↔ n.toInt = Nat.ofDigitChars 10 run 0 := by
  unfold numberOf?
  simp only
  constructor
  · intro h
    split at h
    · rename_i hle
      cases h
      exact Int64.toInt_ofNat_of_lt (by unfold largestNumber at hle; omega)
    · cases h
  · intro h
    have hlt := n.toInt_lt
    have hle : Nat.ofDigitChars 10 run 0 ≤ largestNumber := by unfold largestNumber; omega
    rw [if_pos hle, Option.some.injEq, ← Int64.toInt_inj, h]
    exact Int64.toInt_ofNat_of_lt (by omega)

theorem numberOf?_eq_none_iff (run : List Char) :
    numberOf? run = none ↔ largestNumber < Nat.ofDigitChars 10 run 0 := by
  unfold numberOf?
  simp only
  split
  · rename_i hle
    simp only [reduceCtorEq, false_iff]
    omega
  · rename_i hle
    simp only [true_iff]
    omega

theorem not_tooLarge {run : List Char} {n : Int64} (h : n.toInt = Nat.ofDigitChars 10 run 0) :
    ¬ largestNumber < Nat.ofDigitChars 10 run 0 := by
  have := n.toInt_lt
  unfold largestNumber
  omega

namespace Segment

theorem exists_yields (before : List Char) (segment : Segment) :
    ∃ items, segment.Yields before items := by
  cases segment with
  | blank run => exact ⟨_, .blank run⟩
  | word letters =>
    by_cases h : ∃ k : Keyword, (String.ofList letters).toUpper = k.spelling
    · obtain ⟨k, hk⟩ := h
      exact ⟨_, .keyword hk⟩
    · exact ⟨_, .name (by simpa using h)⟩
  | digits run =>
    cases hn : numberOf? run with
    | none => exact ⟨_, .tooLarge ((numberOf?_eq_none_iff run).mp hn)⟩
    | some n => exact ⟨_, .number ((numberOf?_eq_some_iff run n).mp hn)⟩
  | mark m => exact ⟨_, .mark m⟩
  | literal pieces =>
    by_cases h : ∀ c, Literal.Piece.escape c ∈ pieces → c = '\'' ∨ c = '\\'
    · exact ⟨_, .string h⟩
    · simp only [not_forall] at h
      obtain ⟨c, hmem, hbad⟩ := h
      exact ⟨_, .badString hmem hbad⟩
  | openQuote => exact ⟨_, .openQuote⟩
  | stray c => exact ⟨_, .stray c⟩

theorem Yields.unique {before : List Char} {segment : Segment} {items others : List Item}
    (h : segment.Yields before items) (h' : segment.Yields before others) : items = others := by
  cases h with
  | blank run => cases h'; rfl
  | keyword hk =>
    cases h' with
    | keyword hk' => rw [Keyword.spelling_inj (hk.symm.trans hk')]
    | name hn => exact absurd hk (hn _)
  | name hn =>
    cases h' with
    | keyword hk => exact absurd hk (hn _)
    | name _ => rfl
  | number hn =>
    cases h' with
    | number hn' => rw [Int64.toInt_inj.mp (hn.trans hn'.symm)]
    | tooLarge hlt => exact absurd hlt (not_tooLarge hn)
  | tooLarge hlt =>
    cases h' with
    | number hn => exact absurd hlt (not_tooLarge hn)
    | tooLarge _ => rfl
  | mark m => cases h'; rfl
  | string hgood =>
    cases h' with
    | string _ => rfl
    | badString hmem hbad => exact absurd (hgood _ hmem) hbad
  | badString hmem hbad =>
    cases h' with
    | string hgood => exact absurd (hgood _ hmem) hbad
    | badString _ _ => rfl
  | openQuote => cases h'; rfl
  | stray c => cases h'; rfl

/-- A segment with a token gives that token and nothing else. -/
theorem Yields.of_kind {before : List Char} {segment : Segment} {items : List Item}
    {kind : Token.Kind} (h : segment.Yields before items) (hkind : segment.kind? = some kind) :
    items = [⟨before, .inl kind⟩] ∧ ∀ line, segment.diagnostics line = [] := by
  cases h with
  | blank run => cases hkind
  | @keyword letters k hk =>
    have hword : Keyword.ofWord? (String.ofList letters) = some k :=
      (Keyword.ofWord?_eq_some_iff _ _).mpr hk
    simp only [kind?, Token.Kind.ofWord, hword, Option.some.injEq] at hkind
    subst hkind
    exact ⟨rfl, fun _ => rfl⟩
  | @name letters hn =>
    have hword : Keyword.ofWord? (String.ofList letters) = none := by
      rw [Option.eq_none_iff_forall_ne_some]
      intro k hk
      exact hn k ((Keyword.ofWord?_eq_some_iff _ _).mp hk)
    simp only [kind?, Token.Kind.ofWord, hword, Option.some.injEq] at hkind
    subst hkind
    exact ⟨rfl, fun _ => rfl⟩
  | number hn =>
    simp only [kind?, (numberOf?_eq_some_iff _ _).mpr hn, Option.map_some,
      Option.some.injEq] at hkind
    subst hkind
    exact ⟨rfl, fun line => by simp [diagnostics, (numberOf?_eq_some_iff _ _).mpr hn]⟩
  | tooLarge hlt => simp [kind?, (numberOf?_eq_none_iff _).mpr hlt] at hkind
  | mark m =>
    cases hkind
    exact ⟨rfl, fun _ => rfl⟩
  | string hgood =>
    have hvalue := value?_eq_some hgood
    simp only [kind?, hvalue, Option.map_some, Option.some.injEq] at hkind
    subst hkind
    exact ⟨rfl, fun line => by simp [diagnostics, badEscapes_of_valid hvalue]⟩
  | badString hmem hbad => simp [kind?, value?_eq_none hmem hbad] at hkind
  | openQuote => cases hkind
  | stray c => cases hkind

/-- A segment without a token gives its problems and nothing else. -/
theorem Yields.of_skip {before : List Char} {segment : Segment} {items : List Item}
    (h : segment.Yields before items) (hkind : segment.kind? = none) :
    tokensOf items = [] ∧ diagnosticsOf items = segment.diagnostics (1 + lineFeeds before) := by
  cases h with
  | blank run => exact ⟨rfl, rfl⟩
  | keyword hk => cases hkind
  | name hn => cases hkind
  | number hn => simp [kind?, (numberOf?_eq_some_iff _ _).mpr hn] at hkind
  | tooLarge hlt =>
    refine ⟨rfl, ?_⟩
    simp [diagnostics, (numberOf?_eq_none_iff _).mpr hlt, diagnosticsOf, Item.diagnostic?,
      Item.line]
  | mark m => cases hkind
  | string hgood => simp [kind?, value?_eq_some hgood] at hkind
  | badString hmem hbad =>
    refine ⟨tokensOf_badEscapeItems _ _, ?_⟩
    rw [diagnosticsOf_badEscapeItems]
    simp [diagnostics]
  | openQuote => exact ⟨rfl, rfl⟩
  | stray c => exact ⟨rfl, rfl⟩

theorem content_badEscapeItems {before : List Char} {pieces : List Literal.Piece} {item : Item}
    (h : item ∈ badEscapeItems before pieces) : item.content ≠ .inl .endOfInput := by
  induction pieces generalizing before with
  | nil => cases h
  | cons p ps ih =>
    cases p with
    | plain c => exact ih h
    | escape c =>
      rcases List.mem_append.mp h with h | h
      · split at h
        · cases h
        · rw [List.mem_singleton.mp h]
          simp
      · exact ih h

theorem Yields.content_ne_end {before : List Char} {segment : Segment} {items : List Item}
    (h : segment.Yields before items) : ∀ item ∈ items, item.content ≠ .inl .endOfInput := by
  cases h with
  | badString => exact fun item hmem => content_badEscapeItems hmem
  | _ => simp

end Segment

/-! ## The items of segments -/

theorem exists_yields (before : List Char) (segments : List Segment) :
    ∃ items, Yields before segments items := by
  induction segments generalizing before with
  | nil => exact ⟨_, .nil before⟩
  | cons segment segments ih =>
    obtain ⟨items, hitems⟩ := segment.exists_yields before
    obtain ⟨more, hmore⟩ := ih (before ++ segment.text)
    exact ⟨items ++ more, .cons hitems hmore⟩

theorem Yields.unique {before : List Char} {segments : List Segment} {items others : List Item}
    (h : Yields before segments items) (h' : Yields before segments others) : items = others := by
  induction h generalizing others with
  | nil before => cases h'; rfl
  | cons hitems hmore ih =>
    cases h' with
    | cons hitems' hmore' => rw [hitems.unique hitems', ih hmore']

/-- The last item is the end of the query, and no other is. -/
theorem Yields.last {before : List Char} {segments : List Segment} {items : List Item}
    (h : Yields before segments items) :
    ∃ found, items = found ++ [⟨before ++ segments.flatMap Segment.text, .inl .endOfInput⟩] ∧
      ∀ item ∈ found, item.content ≠ .inl .endOfInput := by
  induction h with
  | nil before => exact ⟨[], by simp, by simp⟩
  | @cons before segment segments items more hitems hmore ih =>
    obtain ⟨found, rfl, hfound⟩ := ih
    refine ⟨items ++ found, by simp, ?_⟩
    intro item hmem
    rcases List.mem_append.mp hmem with hmem | hmem
    · exact hitems.content_ne_end item hmem
    · exact hfound item hmem

theorem Yields.ne_nil {before : List Char} {segments : List Segment} {items : List Item}
    (h : Yields before segments items) : items ≠ [] := by
  obtain ⟨found, rfl, -⟩ := h.last
  simp

/-! ## The order of items -/

/-- The items come in the order of their places, from `low` on and before
`high`. -/
def Between (low high : Nat) (items : List Item) : Prop :=
  items.Pairwise (fun a b => a.place < b.place) ∧
    ∀ item ∈ items, low ≤ item.place ∧ item.place < high

theorem between_nil (low high : Nat) : Between low high [] :=
  ⟨.nil, by simp⟩

theorem between_single {low high : Nat} {item : Item} (hlow : low ≤ item.place)
    (hhigh : item.place < high) : Between low high [item] := by
  refine ⟨List.pairwise_singleton _ _, ?_⟩
  intro other hmem
  rw [List.mem_singleton.mp hmem]
  exact ⟨hlow, hhigh⟩

theorem Between.append {low middle high : Nat} {xs ys : List Item} (hxs : Between low middle xs)
    (hys : Between middle high ys) (hlow : low ≤ middle) (hhigh : middle ≤ high) :
    Between low high (xs ++ ys) := by
  refine ⟨List.pairwise_append.mpr ⟨hxs.1, hys.1, ?_⟩, ?_⟩
  · intro a ha b hb
    have := (hxs.2 a ha).2
    have := (hys.2 b hb).1
    omega
  · intro item hmem
    rcases List.mem_append.mp hmem with hmem | hmem
    · have := hxs.2 item hmem
      omega
    · have := hys.2 item hmem
      omega

theorem between_badEscapeItems (before : List Char) (pieces : List Literal.Piece) :
    Between before.length (before.length + (Literal.inner pieces).length)
      (badEscapeItems before pieces) := by
  induction pieces generalizing before with
  | nil => exact between_nil _ _
  | cons p ps ih =>
    have hps := ih (before ++ p.text)
    have hsum : before.length + (Literal.inner (p :: ps)).length =
        (before ++ p.text).length + (Literal.inner ps).length := by
      simp [Nat.add_assoc]
    rw [hsum]
    have hp : before.length < (before ++ p.text).length := by
      have := List.length_pos_iff.mpr p.text_ne_nil
      simp only [List.length_append]
      omega
    cases p with
    | plain c => exact (between_nil _ _).append hps (Nat.le_of_lt hp) (Nat.le_add_right _ _)
    | escape c =>
      refine Between.append ?_ hps (Nat.le_of_lt hp) (Nat.le_add_right _ _)
      split
      · exact between_nil _ _
      · exact between_single (Nat.le_refl _) hp

theorem Segment.Yields.between {before : List Char} {segment : Segment} {items : List Item}
    (h : segment.Yields before items) (hne : segment.text ≠ []) :
    Between before.length (before ++ segment.text).length items := by
  have hlt : before.length < (before ++ segment.text).length := by
    have := List.length_pos_iff.mpr hne
    simp only [List.length_append]
    omega
  cases h with
  | blank run => exact between_nil _ _
  | @badString pieces c _ _ =>
    have hopen : (before ++ ['\'']).length = before.length + 1 := by simp
    have hlength : (before ++ (Segment.literal pieces).text).length =
        before.length + 1 + ((Literal.inner pieces).length + 1) := by
      simp [Segment.text, Literal.text]
      omega
    have hitems := between_badEscapeItems (before ++ ['\'']) pieces
    refine ⟨hitems.1, ?_⟩
    intro item hmem
    have := hitems.2 item hmem
    omega
  | _ => exact between_single (Nat.le_refl _) hlt

/-- The items of a text come in the order of their places. -/
theorem Yields.between {before rest : List Char} {segments : List Segment} {items : List Item}
    (h : Yields before segments items) (hsplits : Splits rest segments) :
    Between before.length (before.length + rest.length + 1) items := by
  induction h generalizing rest with
  | nil before => exact between_single (Nat.le_refl _) (by simp only [Item.place]; omega)
  | @cons before segment segments items more hitems hmore ih =>
    cases hsplits with
    | @cons _ rest _ hfits hrest =>
      have hmore := ih hrest
      have hlength : (before ++ segment.text).length + rest.length =
          before.length + (segment.text ++ rest).length := by
        simp [Nat.add_assoc]
      rw [← hlength]
      exact (hitems.between (Segment.text_ne_nil hfits)).append hmore (by simp) (by omega)

end SelectQuery
