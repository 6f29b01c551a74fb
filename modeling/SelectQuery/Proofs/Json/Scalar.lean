-- Reading the parts of JSON that have no parts of their own: texts between
-- quotes and numbers. What the grammar allows is read, and nothing else.
import SelectQuery.Proofs.Json.Grammar
import SelectQuery.Proofs.Scan.Segmentation

namespace SelectQuery

namespace Json

/-! ## Parts of a text

Each part of the reader takes what a text begins with, and leaves the text
after it. -/

section

variable {α : Type}

/-- What is read is an item, with the text after it left. -/
def Sound (read : List Char → Option (α × List Char)) (Item : List Char → α → Prop) : Prop :=
  ∀ ⦃text : List Char⦄ ⦃a : α⦄ ⦃rest : List Char⦄, read text = some (a, rest) →
    ∃ letters, Item letters a ∧ text = letters ++ rest

/-- What is made of items that are read. -/
theorem Sound.map {β : Type} {read : List Char → Option (α × List Char)}
    {Item : List Char → α → Prop} {Made : List Char → β → Prop} (h : Sound read Item)
    (f : α → β) (hf : ∀ ⦃letters a⦄, Item letters a → Made letters (f a)) :
    Sound (fun text => (read text).map fun p => (f p.1, p.2)) Made := by
  intro text b rest hread
  obtain ⟨p, hp, heq⟩ := Option.map_eq_some_iff.1 hread
  obtain ⟨rfl, rfl⟩ := Prod.mk.inj heq
  obtain ⟨letters, hitem, htext⟩ := h hp
  exact ⟨letters, hf hitem, htext⟩

theorem dropWhile_run {p : Char → Bool} {run rest : List Char} (hrun : ∀ c ∈ run, p c = true)
    (hrest : ∀ c ∈ rest.head?, p c = false) : (run ++ rest).dropWhile p = rest := by
  have hsplit := @List.takeWhile_append_dropWhile _ p (run ++ rest)
  rw [Segment.takeWhile_run hrun hrest] at hsplit
  exact List.append_cancel_left hsplit

end

/-! ## Characters -/

/-- The character with a code point. -/
def charAt? (n : Nat) : Option Char :=
  if (Char.ofNat n).toNat = n then some (Char.ofNat n) else none

theorem charAt?_eq_some_iff {n : Nat} {c : Char} : charAt? n = some c ↔ c.toNat = n := by
  unfold charAt?
  constructor
  · intro h
    split at h
    · next hn =>
      obtain rfl : Char.ofNat n = c := by simpa using h
      exact hn
    · cases h
  · rintro rfl
    simp

theorem charAt?_eq_none {n : Nat} (hlow : 0xd800 ≤ n) (hhigh : n < 0xe000) :
    charAt? n = none := by
  rw [Option.eq_none_iff_forall_ne_some]
  intro c hc
  have hn := charAt?_eq_some_iff.1 hc
  have hvalid : c.toNat < 0xd800 ∨ 0xdfff < c.toNat ∧ c.toNat < 0x110000 := c.valid
  omega

/-- The second escape of a pair; the first one is `high`. -/
def readLow (high : Nat) : List Char → Option (Char × List Char)
  | '\\' :: 'u' :: a :: b :: c :: d :: rest =>
    (hexNumber? a b c d).bind fun low =>
      if 0xd800 ≤ high ∧ high < 0xdc00 ∧ 0xdc00 ≤ low ∧ low < 0xe000 then
        (charAt? (0x10000 + 0x400 * (high - 0xd800) + (low - 0xdc00))).map fun x => (x, rest)
      else none
  | _ => none

/-- An escape, after its backslash. -/
def readEscape : List Char → Option (Char × List Char)
  | 'u' :: a :: b :: c :: d :: rest =>
    (hexNumber? a b c d).bind fun n =>
      match charAt? n with
      | some x => some (x, rest)
      | none => readLow n rest
  | letter :: rest => (shortEscape? letter).map fun x => (x, rest)
  | [] => none

/-- A character between quotes. -/
def readChar : List Char → Option (Char × List Char)
  | '\\' :: rest => readEscape rest
  | c :: rest => if 0x20 ≤ c.toNat ∧ c ≠ '"' then some (c, rest) else none
  | [] => none

theorem form_of_readLow {a b c d : Char} {high : Nat} (hhigh : hexNumber? a b c d = some high)
    {text : List Char} {x : Char} {rest : List Char} (h : readLow high text = some (x, rest)) :
    ∃ letters, Form ('\\' :: 'u' :: a :: b :: c :: d :: letters) x ∧ text = letters ++ rest := by
  unfold readLow at h
  split at h
  · next e f g i rest' =>
    obtain ⟨low, hlow, h⟩ := Option.bind_eq_some_iff.1 h
    split at h
    · next hrange =>
      obtain ⟨y, hy, heq⟩ := Option.map_eq_some_iff.1 h
      obtain ⟨rfl, rfl⟩ := Prod.mk.inj heq
      rw [charAt?_eq_some_iff] at hy
      obtain ⟨m, rfl⟩ : ∃ m, high = 0xd800 + m := Nat.exists_eq_add_of_le hrange.1
      obtain ⟨n, rfl⟩ : ∃ n, low = 0xdc00 + n := Nat.exists_eq_add_of_le hrange.2.2.1
      rw [Nat.add_sub_cancel_left, Nat.add_sub_cancel_left] at hy
      exact ⟨['\\', 'u', e, f, g, i], .pair hhigh (by omega) hlow (by omega) hy, rfl⟩
    · cases h
  · cases h

theorem sound_readEscape : Sound readEscape fun letters x => Form ('\\' :: letters) x := by
  intro text x rest h
  unfold readEscape at h
  split at h
  · next a b c d rest' =>
    obtain ⟨n, hn, h⟩ := Option.bind_eq_some_iff.1 h
    split at h
    · next y hy =>
      obtain ⟨rfl, rfl⟩ := Prod.mk.inj (Option.some.inj h)
      rw [charAt?_eq_some_iff] at hy
      subst hy
      exact ⟨['u', a, b, c, d], .unit hn, rfl⟩
    · obtain ⟨letters, hform, rfl⟩ := form_of_readLow hn h
      exact ⟨_, hform, rfl⟩
  · next letter rest' _ =>
    obtain ⟨y, hy, heq⟩ := Option.map_eq_some_iff.1 h
    obtain ⟨rfl, rfl⟩ := Prod.mk.inj heq
    exact ⟨[letter], .short hy, rfl⟩
  · cases h

theorem sound_readChar : Sound readChar Form := by
  intro text x rest h
  unfold readChar at h
  split at h
  · obtain ⟨letters, hform, rfl⟩ := sound_readEscape h
    exact ⟨_, hform, rfl⟩
  · next c rest' hback =>
    split at h
    · next hc =>
      obtain ⟨rfl, rfl⟩ := Prod.mk.inj (Option.some.inj h)
      exact ⟨[c], .plain hc.1 hc.2 hback, rfl⟩
    · cases h
  · cases h

theorem readChar_form {form : List Char} {x : Char} (h : Form form x) (rest : List Char) :
    readChar (form ++ rest) = some (x, rest) := by
  cases h with
  | plain h hquote hback =>
    rw [List.singleton_append, readChar.eq_2]
    · rw [if_pos ⟨h, hquote⟩]
    · exact hback
  | @short letter _ h =>
    -- There is no short escape with the letter `u`.
    have hletter : letter ≠ 'u' := by
      rintro rfl
      simp [shortEscape?] at h
    change readEscape (letter :: rest) = _
    rw [readEscape.eq_2, h]
    · rfl
    · exact fun _ _ _ _ _ hu => absurd hu hletter
  | unit h =>
    have hx := charAt?_eq_some_iff.2 (rfl : x.toNat = x.toNat)
    simp [readChar, readEscape, h, hx]
  | @pair _ _ _ _ _ _ _ _ _ high low hhigh hhigh_lt hlow hlow_lt hx =>
    have hnone : charAt? (0xd800 + high) = none := charAt?_eq_none (by omega) (by omega)
    have hrange : 0xd800 ≤ 0xd800 + high ∧ 0xd800 + high < 0xdc00 ∧
        0xdc00 ≤ 0xdc00 + low ∧ 0xdc00 + low < 0xe000 := by omega
    have hsome := charAt?_eq_some_iff.2 hx
    simp only [List.cons_append, List.nil_append, readChar, readEscape, hhigh,
      Option.bind_some, hnone, readLow, hlow, if_pos hrange, Nat.add_sub_cancel_left, hsome,
      Option.map_some]

/-! ## Texts between quotes -/

theorem length_readChar {text : List Char} {c : Char} {rest : List Char}
    (h : readChar text = some (c, rest)) : rest.length < text.length := by
  obtain ⟨form, hform, rfl⟩ := sound_readChar h
  have hpos : 0 < form.length := by cases hform <;> simp
  rw [List.length_append]
  omega

/-- The letters up to the closing quote, and the quote. -/
def readLetters (text : List Char) : Option (List Char × List Char) :=
  match text with
  | '"' :: rest => some ([], rest)
  | text =>
    match _h : readChar text with
    | some (c, rest) => (readLetters rest).map fun p => (c :: p.1, p.2)
    | none => none
termination_by text.length
decreasing_by exact length_readChar _h

/-- A text with its quotes. -/
def readQuoted : List Char → Option (String × List Char)
  | '"' :: rest => (readLetters rest).map fun p => (String.ofList p.1, p.2)
  | _ => none

theorem sound_readLetters :
    Sound readLetters fun letters text => ∃ inner, Letters inner text ∧ letters = inner ++ ['"'] := by
  intro text s rest h
  fun_induction readLetters text generalizing s with
  | case1 rest' =>
    obtain ⟨rfl, rfl⟩ := Prod.mk.inj (Option.some.inj h)
    exact ⟨_, ⟨[], .nil, rfl⟩, rfl⟩
  | case2 text _ c rest' hc ih =>
    obtain ⟨p, hp, heq⟩ := Option.map_eq_some_iff.1 h
    obtain ⟨rfl, rfl⟩ := Prod.mk.inj heq
    obtain ⟨form, hform, rfl⟩ := sound_readChar hc
    obtain ⟨_, ⟨inner, hinner, rfl⟩, rfl⟩ := ih hp
    exact ⟨_, ⟨form ++ inner, .cons hform hinner, rfl⟩, by simp⟩
  | case3 => cases h

theorem readLetters_of_readChar {text : List Char} {c : Char} {rest : List Char}
    (h : readChar text = some (c, rest)) :
    readLetters text = (readLetters rest).map fun p => (c :: p.1, p.2) := by
  -- A quote is no character between quotes.
  have hquote : ∀ rest', text ≠ '"' :: rest' := by
    rintro rest' rfl
    simp [readChar] at h
  rw [readLetters]
  · split
    · next c' rest' h' =>
      obtain ⟨rfl, rfl⟩ := Prod.mk.inj (Option.some.inj (h'.symm.trans h))
      rfl
    · next h' =>
      rw [h] at h'
      cases h'
  · exact hquote

theorem readLetters_letters {letters text : List Char} (h : Letters letters text)
    (rest : List Char) : readLetters (letters ++ '"' :: rest) = some (text, rest) := by
  induction h with
  | nil => rw [List.nil_append, readLetters]
  | @cons form letters text c hc _ ih =>
    have hread := readChar_form hc (letters ++ '"' :: rest)
    rw [List.append_assoc, readLetters_of_readChar hread, ih]
    rfl

theorem sound_readQuoted : Sound readQuoted Quoted := by
  have hletters : Sound (fun text => (readLetters text).map fun p => (String.ofList p.1, p.2))
      fun letters s => Quoted ('"' :: letters) s := by
    refine sound_readLetters.map String.ofList ?_
    rintro _ text ⟨inner, hinner, rfl⟩
    exact .mk (by rwa [String.toList_ofList])
  intro text s rest h
  unfold readQuoted at h
  split at h
  · obtain ⟨letters, hquoted, rfl⟩ := hletters h
    exact ⟨_, hquoted, rfl⟩
  · cases h

theorem readQuoted_quoted {letters : List Char} {s : String} (h : Quoted letters s)
    (rest : List Char) : readQuoted (letters ++ rest) = some (s, rest) := by
  obtain ⟨hletters⟩ := h
  have hread := readLetters_letters hletters rest
  simp [readQuoted, hread]

/-! ## Numbers -/

/-- A number that stands before the text ends there. -/
def EndsNumber (rest : List Char) : Prop :=
  ∀ c ∈ rest.head?, c.isDigit = false

/-- Digits without zeros before them. -/
def readNatural (text : List Char) : Option (Nat × List Char) :=
  let digits := text.takeWhile Char.isDigit
  if digits ≠ [] ∧ (digits.head? = some '0' → digits = ['0']) then
    some (Nat.ofDigitChars 10 digits 0, text.dropWhile Char.isDigit)
  else none

/-- A whole number. -/
def readNumber : List Char → Option (Int × List Char)
  | '-' :: rest => (readNatural rest).map fun p => (-(p.1 : Int), p.2)
  | text => (readNatural text).map fun p => ((p.1 : Int), p.2)

theorem sound_readNatural :
    Sound readNatural fun digits n => IsDecimal digits ∧ Nat.ofDigitChars 10 digits 0 = n := by
  intro text n rest h
  simp only [readNatural] at h
  split at h
  · next hdigits =>
    obtain ⟨rfl, rfl⟩ := Prod.mk.inj (Option.some.inj h)
    refine ⟨_, ⟨⟨hdigits.1, ?_, hdigits.2⟩, rfl⟩, List.takeWhile_append_dropWhile.symm⟩
    exact fun c hc => List.mem_takeWhile_imp hc
  · cases h

theorem readNatural_isDecimal {digits rest : List Char} (h : IsDecimal digits)
    (hrest : EndsNumber rest) :
    readNatural (digits ++ rest) = some (Nat.ofDigitChars 10 digits 0, rest) := by
  have htake := Segment.takeWhile_run h.digit hrest
  have hdrop := dropWhile_run h.digit hrest
  simp only [readNatural, htake, hdrop]
  rw [if_pos ⟨h.ne_nil, h.zero⟩]

theorem sound_readNumber : Sound readNumber Numeral := by
  have hnatural : Sound (fun text => (readNatural text).map fun p => ((p.1 : Int), p.2))
      Numeral := by
    refine sound_readNatural.map Nat.cast ?_
    rintro digits n ⟨hdigits, rfl⟩
    exact .natural hdigits
  have hnegative : Sound (fun text => (readNatural text).map fun p => (-(p.1 : Int), p.2))
      fun digits n => Numeral ('-' :: digits) n := by
    refine sound_readNatural.map (fun n => -(n : Int)) ?_
    rintro digits n ⟨hdigits, rfl⟩
    exact .negative hdigits
  intro text n rest h
  unfold readNumber at h
  split at h
  · obtain ⟨digits, hdigits, rfl⟩ := hnegative h
    exact ⟨_, hdigits, rfl⟩
  · exact hnatural h

theorem readNumber_numeral {letters : List Char} {n : Int} (h : Numeral letters n)
    {rest : List Char} (hrest : EndsNumber rest) :
    readNumber (letters ++ rest) = some (n, rest) := by
  cases h with
  | natural h =>
    have hread := readNatural_isDecimal h hrest
    rw [readNumber.eq_2, hread]
    · rfl
    · -- The first digit is no minus sign.
      intro rest' heq
      cases letters with
      | nil => exact h.ne_nil rfl
      | cons d digits =>
        obtain rfl : d = '-' := by simpa using (List.cons.inj heq).1
        exact absurd (h.digit '-' (by simp)) (by decide)
  | negative h =>
    have hread := readNatural_isDecimal h hrest
    rw [List.cons_append, readNumber, hread]
    rfl

end Json

end SelectQuery
