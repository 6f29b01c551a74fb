-- The texts of JSON values, as a grammar: that of JSON for whole numbers, texts,
-- arrays and objects. Blanks are free between the parts of a value, and a
-- character inside a text has several forms. Whatever a layout puts between the
-- parts, as long as it is blank, the grammar allows.
import SelectQuery.Json.Basic
import Mathlib.Data.List.Forall2

namespace SelectQuery

namespace Json

/-! ## Texts between quotes -/

/-- The value of a digit in hexadecimal. -/
def hexValue? (c : Char) : Option Nat :=
  if '0' ≤ c ∧ c ≤ '9' then some (c.toNat - '0'.toNat)
  else if 'a' ≤ c ∧ c ≤ 'f' then some (c.toNat - 'a'.toNat + 10)
  else if 'A' ≤ c ∧ c ≤ 'F' then some (c.toNat - 'A'.toNat + 10)
  else none

/-- The number that four digits in hexadecimal stand for. -/
def hexNumber? (a b c d : Char) : Option Nat :=
  match hexValue? a, hexValue? b, hexValue? c, hexValue? d with
  | some i, some j, some k, some l => some (0x1000 * i + 0x100 * j + 0x10 * k + l)
  | _, _, _, _ => none

/-- The characters that have an escape of one letter. -/
def shortEscape? : Char → Option Char
  | '"' => some '"'
  | '\\' => some '\\'
  | '/' => some '/'
  | 'b' => some '\x08'
  | 'f' => some '\x0c'
  | 'n' => some '\n'
  | 'r' => some '\r'
  | 't' => some '\t'
  | _ => none

/-- The forms of one character between quotes. A character past the first
`0x10000` code points has a pair of escapes, a high one and a low one. -/
inductive Form : List Char → Char → Prop
  | plain {c : Char} (h : 0x20 ≤ c.toNat) (hquote : c ≠ '"') (hback : c ≠ '\\') : Form [c] c
  | short {letter c : Char} (h : shortEscape? letter = some c) : Form ['\\', letter] c
  | unit {a b c d x : Char} (h : hexNumber? a b c d = some x.toNat) :
      Form ['\\', 'u', a, b, c, d] x
  | pair {a b c d e f g h x : Char} {high low : Nat}
      (hhigh : hexNumber? a b c d = some (0xd800 + high)) (hhigh_lt : high < 0x400)
      (hlow : hexNumber? e f g h = some (0xdc00 + low)) (hlow_lt : low < 0x400)
      (hx : x.toNat = 0x10000 + 0x400 * high + low) :
      Form ['\\', 'u', a, b, c, d, '\\', 'u', e, f, g, h] x

/-- The letters of a text, one form after the other. -/
inductive Letters : List Char → List Char → Prop
  | nil : Letters [] []
  | cons {form letters text : List Char} {c : Char} (hc : Form form c)
      (h : Letters letters text) : Letters (form ++ letters) (c :: text)

/-- A text with its quotes. -/
inductive Quoted : List Char → String → Prop
  | mk {letters : List Char} {text : String} (h : Letters letters text.toList) :
      Quoted ('"' :: letters ++ ['"']) text

/-! ## Numbers -/

/-- Digits of a number, without zeros before them. -/
structure IsDecimal (digits : List Char) : Prop where
  ne_nil : digits ≠ []
  digit : ∀ c ∈ digits, c.isDigit = true
  zero : digits.head? = some '0' → digits = ['0']

/-- A whole number with its sign. -/
inductive Numeral : List Char → Int → Prop
  | natural {digits : List Char} (h : IsDecimal digits) :
      Numeral digits (Nat.ofDigitChars 10 digits 0)
  | negative {digits : List Char} (h : IsDecimal digits) :
      Numeral ('-' :: digits) (-(Nat.ofDigitChars 10 digits 0 : Nat))

/-! ## Lists and values

What stands between brackets is said for any kind of item: items of arrays are
values, items of objects are fields. -/

/-- The characters that may stand between the parts of a value. -/
def isSpace (c : Char) : Bool :=
  c == ' ' || c == '\t' || c == '\n' || c == '\r'

/-- Nothing but blanks. -/
def Blank (text : List Char) : Prop :=
  ∀ c ∈ text, isSpace c = true

section

variable {α : Type}

/-- Blanks around an item. -/
inductive Spaced (Item : List Char → α → Prop) : List Char → α → Prop
  | mk {before letters after : List Char} {a : α} (hbefore : Blank before)
      (h : Item letters a) (hafter : Blank after) : Spaced Item (before ++ letters ++ after) a

/-- One or more items with commas between them. -/
inductive Separated (Item : List Char → α → Prop) : List Char → List α → Prop
  | last {text : List Char} {a : α} (h : Spaced Item text a) : Separated Item text [a]
  | cons {text rest : List Char} {a : α} {items : List α} (h : Spaced Item text a)
      (hrest : Separated Item rest items) : Separated Item (text ++ ',' :: rest) (a :: items)

/-- A list of items between its brackets. -/
inductive Bracketed (opening closing : Char) (Item : List Char → α → Prop) :
    List Char → List α → Prop
  | empty {text : List Char} (h : Blank text) :
      Bracketed opening closing Item (opening :: text ++ [closing]) []
  | items {text : List Char} {items : List α} (h : Separated Item text items) :
      Bracketed opening closing Item (opening :: text ++ [closing]) items

end

/-- A key and its value. -/
inductive Field (Item : List Char → Json → Prop) : List Char → String × Json → Prop
  | mk {quoted before after letters : List Char} {key : String} {value : Json}
      (hkey : Quoted quoted key) (hbefore : Blank before) (hafter : Blank after)
      (h : Item letters value) :
      Field Item (quoted ++ before ++ ':' :: after ++ letters) (key, value)

/-- The letters stand for a value. -/
inductive Denotes : List Char → Json → Prop
  | number {letters : List Char} {n : Int} (h : Numeral letters n) :
      Denotes letters (.number n)
  | string {letters : List Char} {s : String} (h : Quoted letters s) :
      Denotes letters (.string s)
  | array {letters : List Char} {items : List Json}
      (h : Bracketed '[' ']' Denotes letters items) : Denotes letters (.array items)
  | object {letters : List Char} {fields : List (String × Json)}
      (h : Bracketed '\x7b' '\x7d' (Field Denotes) letters fields) :
      Denotes letters (.object fields)

/-- The text is that of a value, with blanks around it. -/
def IsTextOf (text : String) (value : Json) : Prop :=
  Spaced Denotes text.toList value

/-! ## Texts and numbers are written as the grammar says -/

theorem hexValue?_digitChar {n : Nat} (h : n < 16) : hexValue? n.digitChar = some n := by
  have hall : ∀ m < 16, hexValue? (Nat.digitChar m) = some m := by decide
  exact hall n h

theorem form_unicodeEscape {c : Char} (h : c.toNat < 256) : Form (unicodeEscape c) c := by
  have hzero : hexValue? '0' = some 0 := by decide
  apply Form.unit
  simp only [hexNumber?, hzero, hexValue?_digitChar (show c.toNat / 16 < 16 by omega),
    hexValue?_digitChar (show c.toNat % 16 < 16 by omega), Option.some.injEq]
  omega

theorem form_escaped (c : Char) : Form (escaped c) c := by
  unfold escaped
  split
  case h_8 hquote hback _ _ _ _ _ =>
    by_cases h : c.toNat < 0x20
    · rw [if_pos h]
      exact form_unicodeEscape (by omega)
    · rw [if_neg h]
      exact .plain (by omega) hquote hback
  all_goals exact .short (by decide)

theorem letters_escaped (text : List Char) : Letters (text.flatMap escaped) text := by
  induction text with
  | nil => exact .nil
  | cons c text ih => exact .cons (form_escaped c) ih

theorem quoted_quotedText (s : String) : Quoted (quotedText s).toList s := by
  rw [quotedText, String.toList_ofList]
  exact .mk (letters_escaped s.toList)

/-- The first digit of a number is a zero only for the number zero. -/
theorem head_toDigits (n : Nat) :
    (Nat.toDigits 10 n).head? = some '0' → Nat.toDigits 10 n = ['0'] := by
  induction n using Nat.strongRecOn with
  | _ n ih =>
    intro h
    by_cases hn : n < 10
    · rw [Nat.toDigits_of_lt_base hn] at h ⊢
      simpa using h
    · -- The digits begin as those of `n / 10`, which is not zero.
      rw [Nat.toDigits_of_base_le (by decide) (by omega)] at h
      rw [List.head?_append_of_ne_nil _ Nat.toDigits_ne_nil] at h
      have hzero := ih (n / 10) (by omega) h
      have : Nat.ofDigitChars 10 (Nat.toDigits 10 (n / 10)) 0 = 0 := by rw [hzero]; rfl
      rw [Nat.ofDigitChars_ten_toDigits] at this
      omega

theorem isDecimal_toDigits (n : Nat) : IsDecimal (Nat.toDigits 10 n) where
  ne_nil := Nat.toDigits_ne_nil
  digit := fun _ hc => Nat.isDigit_of_mem_toDigits (by decide) (by decide) hc
  zero := head_toDigits n

theorem numeral_toString (n : Int) : Numeral (toString n).toList n := by
  rw [Int.toString_eq_repr, Int.repr_eq_if]
  split
  · next h =>
    have := Numeral.natural (isDecimal_toDigits n.toNat)
    rwa [Nat.ofDigitChars_ten_toDigits, Int.toNat_of_nonneg h, ← Nat.toList_repr] at this
  · next h =>
    have := Numeral.negative (isDecimal_toDigits (-n).toNat)
    rw [Nat.ofDigitChars_ten_toDigits, Int.toNat_of_nonneg (by omega), Int.neg_neg] at this
    rwa [String.toList_append, Nat.toList_repr]

/-! ## So are values, in any layout of blanks -/

/-- Only blanks stand where a layout leaves room. -/
structure Layout.IsBlank (layout : Layout) : Prop where
  lineBreak : ∀ depth, Blank (layout.lineBreak depth).toList
  colon : ∃ blanks, Blank blanks ∧ layout.colon.toList = ':' :: blanks

theorem blank_nil : Blank [] := by
  intro c hc
  simp at hc

theorem Layout.isBlank_compact : Layout.compact.IsBlank where
  lineBreak := fun _ => blank_nil
  colon := ⟨[], blank_nil, rfl⟩

theorem toList_pushn (s : String) (c : Char) (n : Nat) :
    (s.pushn c n).toList = s.toList ++ List.replicate n c := by
  rw [String.pushn_eq_repeat_push]
  induction n with
  | zero => simp [Nat.repeat]
  | succ n ih => simp [Nat.repeat, ih, List.replicate_succ']

theorem Layout.isBlank_indented : Layout.indented.IsBlank where
  lineBreak := by
    intro depth c hc
    rw [Layout.indented, String.toList_append, toList_pushn] at hc
    rcases List.mem_append.1 hc with h | h
    · obtain rfl : c = '\n' := by simpa using h
      decide
    · obtain rfl : c = ' ' := by
        rw [String.toList_empty, List.nil_append] at h
        exact List.eq_of_mem_replicate h
      decide
  colon := by
    refine ⟨[' '], ?_, rfl⟩
    intro c hc
    obtain rfl : c = ' ' := by simpa using hc
    decide

section

variable {α : Type} {Item : List Char → α → Prop}

/-- Written items after line breaks, with commas between them. -/
theorem separated_intercalate {gap last : String} (hgap : Blank gap.toList)
    (hlast : Blank last.toList) {texts : List String} {items : List α}
    (h : List.Forall₂ (fun text a => Item text.toList a) texts items) (hne : texts ≠ []) :
    Separated Item (gap ++ ("," ++ gap).intercalate texts ++ last).toList items := by
  induction h with
  | nil => exact absurd rfl hne
  | @cons text a texts items htext h ih =>
    cases h with
    | nil =>
      rw [String.intercalate_singleton, String.toList_append, String.toList_append]
      exact .last (.mk hgap htext hlast)
    | @cons next b texts items hnext h =>
      have htail := Separated.cons (.mk hgap htext blank_nil) (ih (by simp))
      rw [String.intercalate_cons_cons]
      simpa [String.toList_append] using htail

/-- What a layout puts between two brackets. -/
theorem bracketed_bracketed {layout : Layout} (hlayout : layout.IsBlank) (depth : Nat)
    (opening closing : Char) {texts : List String} {items : List α}
    (h : List.Forall₂ (fun text a => Item text.toList a) texts items) :
    Bracketed opening closing Item
      (layout.bracketed depth (String.singleton opening) (String.singleton closing) texts).toList
      items := by
  cases h with
  | nil =>
    have hempty : Bracketed opening closing Item (opening :: [] ++ [closing]) [] :=
      .empty blank_nil
    simpa [Layout.bracketed] using hempty
  | @cons text a texts items htext h =>
    have hitems := separated_intercalate (hlayout.lineBreak (depth + 1))
      (hlayout.lineBreak depth) (.cons htext h) (by simp)
    have hlist := @Bracketed.items α opening closing Item _ _ hitems
    simpa [Layout.bracketed, String.toList_append] using hlist

end

mutual

/-- A written value stands for the value. -/
theorem denotes_write {layout : Layout} (hlayout : layout.IsBlank) :
    ∀ (value : Json) (depth : Nat), Denotes (value.write layout depth).toList value
  | number n, _ => .number (by rw [write]; exact numeral_toString n)
  | string s, _ => .string (by rw [write]; exact quoted_quotedText s)
  | array items, depth => by
    rw [write]
    exact .array (bracketed_bracketed hlayout depth '[' ']'
      (denotes_writeItems hlayout items (depth + 1)))
  | object fields, depth => by
    rw [write]
    exact .object (bracketed_bracketed hlayout depth '\x7b' '\x7d'
      (denotes_writeFields hlayout fields (depth + 1)))

theorem denotes_writeItems {layout : Layout} (hlayout : layout.IsBlank) :
    ∀ (items : List Json) (depth : Nat),
      List.Forall₂ (fun text v => Denotes text.toList v) (writeItems layout depth items) items
  | [], _ => by rw [writeItems]; exact .nil
  | item :: items, depth => by
    rw [writeItems]
    exact .cons (denotes_write hlayout item depth) (denotes_writeItems hlayout items depth)

theorem denotes_writeFields {layout : Layout} (hlayout : layout.IsBlank) :
    ∀ (fields : List (String × Json)) (depth : Nat),
      List.Forall₂ (fun text field => Field Denotes text.toList field)
        (writeFields layout depth fields) fields
  | [], _ => by rw [writeFields]; exact .nil
  | (key, value) :: fields, depth => by
    rw [writeFields]
    refine .cons ?_ (denotes_writeFields hlayout fields depth)
    obtain ⟨blanks, hblanks, hcolon⟩ := hlayout.colon
    have hfield := Field.mk (quoted_quotedText key) blank_nil hblanks
      (denotes_write hlayout value depth)
    simpa [String.toList_append, hcolon] using hfield

end

/-- Both ways to lay a value out give a text of the value. -/
theorem isTextOf_compact (value : Json) : IsTextOf value.compact value := by
  have := Spaced.mk blank_nil (denotes_write Layout.isBlank_compact value 0) blank_nil
  rwa [List.nil_append, List.append_nil] at this

theorem isTextOf_indented (value : Json) : IsTextOf value.indented value := by
  have := Spaced.mk blank_nil (denotes_write Layout.isBlank_indented value 0) blank_nil
  rwa [List.nil_append, List.append_nil] at this

end Json

end SelectQuery
