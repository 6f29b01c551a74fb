-- String literals: a text between single quotes, where a backslash lets a
-- quote or a backslash stand for itself. Any other escape is a mistake, but
-- it does not end the literal. Main statement: reading finds exactly the
-- pieces up to the first quote that no backslash takes.
import SelectQuery.Text.Cursor

namespace SelectQuery

namespace Literal

/-! ## Pieces -/

/-- What may be escaped: the quote and the backslash. -/
def isSpecial (c : Char) : Bool :=
  c = '\'' || c = '\\'

/-- A piece of a literal: a character on its own, or a backslash together with
the character after it. -/
inductive Piece where
  | plain (c : Char)
  | escape (c : Char)
  deriving DecidableEq, Repr

namespace Piece

/-- The piece as it is written. -/
def text : Piece → List Char
  | plain c => [c]
  | escape c => ['\\', c]

/-- The character that the piece stands for. -/
def char : Piece → Char
  | plain c => c
  | escape c => c

/-- The piece is a character on its own or a proper escape. -/
def isValid : Piece → Bool
  | plain _ => true
  | escape c => isSpecial c

/-- The piece that stands for a character. -/
def ofChar (c : Char) : Piece :=
  if isSpecial c then escape c else plain c

/-- A piece can stand inside a literal: a special character has its backslash. -/
def Fits : Piece → Prop
  | plain c => isSpecial c = false
  | escape _ => True

@[simp]
theorem char_ofChar (c : Char) : (ofChar c).char = c := by
  unfold ofChar
  split <;> rfl

@[simp]
theorem isValid_ofChar (c : Char) : (ofChar c).isValid = true := by
  unfold ofChar
  split
  · assumption
  · rfl

theorem fits_ofChar (c : Char) : (ofChar c).Fits := by
  unfold ofChar
  split
  · trivial
  · next h => simpa [Fits] using h

/-- Only one valid piece that fits stands for a character. -/
theorem eq_ofChar {p : Piece} (hfits : p.Fits) (hvalid : p.isValid = true) :
    p = ofChar p.char := by
  cases p with
  | plain c => simp_all [Fits, ofChar, char]
  | escape c => simp_all [isValid, ofChar, char]

theorem text_ne_nil (p : Piece) : p.text ≠ [] := by
  cases p <;> simp [text]

end Piece

/-! ## Reading -/

/-- The pieces from after an opening quote up to the first quote that no
backslash takes, or nothing if the text ends before one. -/
def body? : List Char → Option (List Piece)
  | [] => none
  | '\'' :: _ => some []
  | ['\\'] => none
  | '\\' :: c :: rest => (body? rest).map (.escape c :: ·)
  | c :: rest => (body? rest).map (.plain c :: ·)

/-- What stands between the quotes, as it is written. -/
def inner (pieces : List Piece) : List Char :=
  pieces.flatMap Piece.text

/-- The whole literal as it is written. -/
def text (pieces : List Piece) : List Char :=
  '\'' :: (inner pieces ++ ['\''])

/-- The content of a literal, if all its escapes are proper. -/
def value? (pieces : List Piece) : Option String :=
  if pieces.all Piece.isValid then some (String.ofList (pieces.map Piece.char)) else none

/-- The characters with an improper escape, each with the line of its
backslash; the first piece is on `line`. -/
def badEscapes (line : Nat) : List Piece → List (Char × Nat)
  | [] => []
  | piece :: pieces =>
    let later := badEscapes (line + lineFeeds piece.text) pieces
    if piece.isValid then later else (piece.char, line) :: later

/-! ## Writing -/

/-- The literal with a given content. -/
def write (value : String) : String :=
  String.ofList (text (value.toList.map Piece.ofChar))

/-! ## Reading finds what is written -/

@[simp]
theorem inner_nil : inner [] = [] := rfl

@[simp]
theorem inner_cons (p : Piece) (ps : List Piece) : inner (p :: ps) = p.text ++ inner ps := by
  simp [inner]

@[simp]
theorem body?_escape (c : Char) (rest : List Char) :
    body? ('\\' :: c :: rest) = (body? rest).map (.escape c :: ·) := by
  simp [body?]

theorem body?_plain {c : Char} (h : isSpecial c = false) (rest : List Char) :
    body? (c :: rest) = (body? rest).map (.plain c :: ·) := by
  have hq : c ≠ '\'' := by rintro rfl; simp [isSpecial] at h
  have hb : c ≠ '\\' := by rintro rfl; simp [isSpecial] at h
  rw [body?] <;> simp_all

theorem body?_inner {pieces : List Piece} (h : ∀ p ∈ pieces, p.Fits) (rest : List Char) :
    body? (inner pieces ++ '\'' :: rest) = some pieces := by
  induction pieces with
  | nil => simp [body?]
  | cons p ps ih =>
    have ih := ih fun q hq => h q (List.mem_cons_of_mem _ hq)
    cases p with
    | plain c =>
      have hc : isSpecial c = false := h _ List.mem_cons_self
      simp [Piece.text, body?_plain hc, ih]
    | escape c => simp [Piece.text, ih]

theorem eq_inner_of_body? {cs : List Char} {pieces : List Piece} (h : body? cs = some pieces) :
    (∀ p ∈ pieces, p.Fits) ∧ ∃ rest, cs = inner pieces ++ '\'' :: rest := by
  fun_induction body? cs generalizing pieces with
  | case1 => simp at h
  | case2 rest =>
    simp at h
    subst h
    exact ⟨by simp, rest, by simp⟩
  | case3 => simp at h
  | case4 c rest ih =>
    obtain ⟨ps, hps, rfl⟩ := Option.map_eq_some_iff.mp h
    obtain ⟨hfits, after, rfl⟩ := ih hps
    refine ⟨?_, after, by simp [Piece.text]⟩
    simp only [List.mem_cons, forall_eq_or_imp]
    exact ⟨trivial, hfits⟩
  | case5 c rest hq hb hbc ih =>
    obtain ⟨ps, hps, rfl⟩ := Option.map_eq_some_iff.mp h
    obtain ⟨hfits, after, rfl⟩ := ih hps
    refine ⟨?_, after, by simp [Piece.text]⟩
    simp only [List.mem_cons, forall_eq_or_imp]
    refine ⟨?_, hfits⟩
    have hb' : c ≠ '\\' := by
      rintro rfl
      cases hin : inner ps ++ '\'' :: after with
      | nil => simp at hin
      | cons d ds => exact hbc d ds rfl hin
    simpa [Piece.Fits, isSpecial] using ⟨hq, hb'⟩

/-- Reading finds the pieces up to the first quote that no backslash takes. -/
theorem body?_eq_some_iff (cs : List Char) (pieces : List Piece) :
    body? cs = some pieces ↔
      (∀ p ∈ pieces, p.Fits) ∧ ∃ rest, cs = inner pieces ++ '\'' :: rest := by
  constructor
  · exact eq_inner_of_body?
  · rintro ⟨h, rest, rfl⟩
    exact body?_inner h rest

end Literal

end SelectQuery
