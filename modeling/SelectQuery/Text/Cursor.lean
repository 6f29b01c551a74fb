-- A place in a text: how many bytes and lines lie before it, and the
-- characters still to come. Reading moves the place forward, and only that.

namespace SelectQuery

/-! ## Measures of a stretch of text -/

/-- The number of bytes that characters take in UTF-8. -/
def byteLength : List Char → Nat
  | [] => 0
  | c :: cs => c.utf8Size + byteLength cs

/-- The number of line feeds among characters. -/
def lineFeeds (chars : List Char) : Nat :=
  chars.count '\n'

@[simp]
theorem byteLength_nil : byteLength [] = 0 := rfl

@[simp]
theorem byteLength_cons (c : Char) (cs : List Char) :
    byteLength (c :: cs) = c.utf8Size + byteLength cs := rfl

@[simp]
theorem byteLength_append (cs ds : List Char) :
    byteLength (cs ++ ds) = byteLength cs + byteLength ds := by
  induction cs with
  | nil => simp
  | cons c cs ih => simp [ih, Nat.add_assoc]

theorem byteLength_pos {chars : List Char} (h : chars ≠ []) : 0 < byteLength chars := by
  cases chars with
  | nil => exact absurd rfl h
  | cons c cs =>
    have := c.utf8Size_pos
    simp only [byteLength_cons]
    omega

/-- Of two stretches at the start of one text, the one with no more bytes is the
start of the other. -/
theorem prefix_of_byteLength_le {front back before rest : List Char}
    (h : front ++ back = before ++ rest) (hle : byteLength front ≤ byteLength before) :
    ∃ middle, before = front ++ middle ∧ back = middle ++ rest := by
  rcases List.append_eq_append_iff.mp h with ⟨middle, hbefore, hback⟩ | ⟨middle, hfront, hrest⟩
  · exact ⟨middle, hbefore, hback⟩
  · have hnil : middle = [] := by
      refine Decidable.byContradiction fun hne => ?_
      have := byteLength_pos hne
      rw [hfront, byteLength_append] at hle
      omega
    subst hnil
    exact ⟨[], by simpa using hfront.symm, by simpa using hrest.symm⟩

@[simp]
theorem lineFeeds_nil : lineFeeds [] = 0 := rfl

@[simp]
theorem lineFeeds_cons (c : Char) (cs : List Char) :
    lineFeeds (c :: cs) = (if c = '\n' then 1 else 0) + lineFeeds cs := by
  simp [lineFeeds, List.count_cons, Nat.add_comm]

@[simp]
theorem lineFeeds_append (cs ds : List Char) :
    lineFeeds (cs ++ ds) = lineFeeds cs + lineFeeds ds := by
  simp [lineFeeds]

/-! ## The cursor -/

/-- A place in a text. -/
structure Cursor where
  /-- The number of bytes before the place. -/
  offset : Nat
  /-- The line of the place, counted from 1. -/
  line : Nat
  /-- The characters from the place on. -/
  rest : List Char
  deriving DecidableEq, Repr

namespace Cursor

/-- The place before the first character of a text. -/
def start (text : String) : Cursor :=
  { offset := 0, line := 1, rest := text.toList }

/-- The place after `taken`, which are the next characters of the text. -/
def past (cursor : Cursor) (taken : List Char) : Cursor :=
  { offset := cursor.offset + byteLength taken
    line := cursor.line + lineFeeds taken
    rest := cursor.rest.drop taken.length }

/-- A cursor stands in a text after `before`: offset and line are those of
`before`, and the rest is what follows it. -/
structure Stands (cursor : Cursor) (text before : List Char) : Prop where
  text_eq : text = before ++ cursor.rest
  offset_eq : cursor.offset = byteLength before
  line_eq : cursor.line = 1 + lineFeeds before

theorem stands_start (text : String) : (start text).Stands text.toList [] :=
  ⟨rfl, rfl, rfl⟩

/-- Moving past the next characters keeps the cursor standing in its text. -/
theorem Stands.past {cursor : Cursor} {text before taken after : List Char}
    (h : cursor.Stands text before) (hrest : cursor.rest = taken ++ after) :
    (cursor.past taken).Stands text (before ++ taken) where
  text_eq := by simp [h.text_eq, hrest, Cursor.past]
  offset_eq := by simp [h.offset_eq, Cursor.past]
  line_eq := by simp [h.line_eq, Cursor.past, Nat.add_assoc]

end Cursor

end SelectQuery
