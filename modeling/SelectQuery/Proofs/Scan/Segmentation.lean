-- How a text falls into segments, said by what stands where and not by how
-- it is scanned. The text at the start of a stretch decides its first
-- segment, so a text falls into segments in one way only.
import SelectQuery.Scan.Segment
import Mathlib.Data.List.TakeWhile

namespace SelectQuery

/-! ## The classes of characters are apart -/

theorem blank_cases {c : Char} (h : isBlank c = true) :
    c = ' ' ∨ c = '\t' ∨ c = '\r' ∨ c = '\n' := by
  simpa [isBlank, or_assoc] using h

theorem isWordStart_of_blank {c : Char} (h : isBlank c = true) : isWordStart c = false := by
  rcases blank_cases h with rfl | rfl | rfl | rfl <;> decide

theorem isWordPart_of_blank {c : Char} (h : isBlank c = true) : isWordPart c = false := by
  rcases blank_cases h with rfl | rfl | rfl | rfl <;> decide

theorem isDigit_of_blank {c : Char} (h : isBlank c = true) : c.isDigit = false := by
  rcases blank_cases h with rfl | rfl | rfl | rfl <;> decide

theorem isBlank_of_wordStart {c : Char} (h : isWordStart c = true) : isBlank c = false := by
  by_contra hb
  rw [isWordStart_of_blank (by simpa using hb)] at h
  exact absurd h (by decide)

/-- A digit goes on a word but starts none. -/
theorem isWordStart_of_digit {c : Char} (h : c.isDigit = true) : isWordStart c = false := by
  have hdigit : c.val.toNat ≤ 57 := (Bool.and_eq_true_iff.mp h).2 |> of_decide_eq_true
  by_contra hstart
  rw [Bool.not_eq_false, isWordStart, Bool.or_eq_true, decide_eq_true_eq] at hstart
  rcases hstart with hletter | rfl
  · rcases Bool.or_eq_true_iff.mp hletter with hupper | hlower
    · have : 65 ≤ c.val.toNat := (of_decide_eq_true hupper).1
      omega
    · have : 97 ≤ c.val.toNat := of_decide_eq_true (Bool.and_eq_true_iff.mp hlower).1
      omega
  · exact absurd hdigit (by decide)

theorem isBlank_of_digit {c : Char} (h : c.isDigit = true) : isBlank c = false := by
  by_contra hb
  rw [isDigit_of_blank (by simpa using hb)] at h
  exact absurd h (by decide)

/-- A mark is no character of another class. -/
theorem classes_of_mark (m : Mark) :
    isBlank m.char = false ∧ isWordPart m.char = false ∧ isWordStart m.char = false ∧
      m.char.isDigit = false ∧ m.char ≠ '\'' := by
  cases m <;> decide

namespace Segment

/-! ## Where a segment ends -/

/-- With `rest` right after it, a segment has its right shape and reaches as
far as it must: a run goes on as long as it can, a literal ends at the first
quote that no backslash takes, and a quote stands alone only if no such quote
follows. -/
def FitsBefore (rest : List Char) : Segment → Prop
  | blank run => run ≠ [] ∧ (∀ c ∈ run, isBlank c = true) ∧ ∀ c ∈ rest.head?, isBlank c = false
  | word letters => isWord letters = true ∧ ∀ c ∈ rest.head?, isWordPart c = false
  | digits run =>
    run ≠ [] ∧ (∀ c ∈ run, c.isDigit = true) ∧ ∀ c ∈ rest.head?, c.isDigit = false
  | mark _ => True
  | literal pieces => ∀ p ∈ pieces, p.Fits
  | openQuote =>
    ∀ pieces after, (∀ p ∈ pieces, p.Fits) → rest ≠ Literal.inner pieces ++ '\'' :: after
  | stray c =>
    isBlank c = false ∧ isWordStart c = false ∧ c.isDigit = false ∧ c ≠ '\'' ∧
      ∀ m : Mark, c ≠ m.char

theorem head_dropWhile (p : Char → Bool) (cs : List Char) :
    ∀ c ∈ (cs.dropWhile p).head?, p c = false := by
  intro c hc
  have := List.head?_dropWhile_not p cs
  rw [Option.mem_def.mp hc] at this
  exact this

/-- A run that the rest does not go on is what `takeWhile` finds. -/
theorem takeWhile_run {α : Type} {p : α → Bool} {run rest : List α}
    (hrun : ∀ c ∈ run, p c = true) (hrest : ∀ c ∈ rest.head?, p c = false) :
    (run ++ rest).takeWhile p = run := by
  cases rest with
  | nil => simpa using hrun
  | cons c cs =>
    have hc := hrest c (by simp)
    simp [List.takeWhile_append_of_pos hrun, hc]

/-- What the scanner takes as the first segment fits before what follows it. -/
theorem fitsBefore_of_first? {cs : List Char} {segment : Segment}
    (h : first? cs = some segment) :
    ∃ rest, cs = segment.text ++ rest ∧ segment.FitsBefore rest := by
  fun_cases first? cs with
  | case1 => simp [first?] at h
  | case2 c cs hb =>
    simp [first?, hb] at h
    subst h
    refine ⟨cs.dropWhile isBlank, by simp [text, List.takeWhile_append_dropWhile], by simp, ?_,
      head_dropWhile _ _⟩
    intro d hd
    rcases List.mem_cons.mp hd with rfl | hd
    · exact hb
    · exact List.mem_takeWhile_imp hd
  | case3 c cs hb hw =>
    simp [first?, hb, hw] at h
    subst h
    refine ⟨cs.dropWhile isWordPart, by simp [text, List.takeWhile_append_dropWhile], ?_,
      head_dropWhile _ _⟩
    simp only [isWord, hw, Bool.true_and, List.all_eq_true]
    intro d hd
    exact List.mem_takeWhile_imp hd
  | case4 c cs hb hw hd =>
    simp [first?, hb, hw, hd] at h
    subst h
    refine ⟨cs.dropWhile Char.isDigit, by simp [text, List.takeWhile_append_dropWhile], by simp,
      ?_, head_dropWhile _ _⟩
    intro d hmem
    rcases List.mem_cons.mp hmem with rfl | hmem
    · exact hd
    · exact List.mem_takeWhile_imp hmem
  | case5 cs pieces hbody hb hw hd =>
    rw [first?, if_neg hb, if_neg hw, if_neg hd, if_pos rfl, hbody] at h
    cases h
    obtain ⟨hfits, rest, rfl⟩ := Literal.eq_inner_of_body? hbody
    exact ⟨rest, by simp [text, Literal.text], hfits⟩
  | case6 cs hbody hb hw hd =>
    rw [first?, if_neg hb, if_neg hw, if_neg hd, if_pos rfl, hbody] at h
    cases h
    refine ⟨cs, rfl, ?_⟩
    rintro pieces after hfits rfl
    rw [Literal.body?_inner hfits] at hbody
    cases hbody
  | case7 c cs hb hw hd hq m hm =>
    rw [first?, if_neg hb, if_neg hw, if_neg hd, if_neg hq, hm] at h
    cases h
    have := (Mark.ofChar?_eq_some_iff c m).mp hm
    exact ⟨cs, by simp [text, this], trivial⟩
  | case8 c cs hb hw hd hq hm =>
    rw [first?, if_neg hb, if_neg hw, if_neg hd, if_neg hq, hm] at h
    cases h
    refine ⟨cs, rfl, by simpa using hb, by simpa using hw, by simpa using hd, hq, ?_⟩
    rintro m rfl
    rw [Mark.ofChar?_char] at hm
    cases hm

/-- At a quote stands the literal that it opens, or the quote alone. -/
theorem first?_quote (tail : List Char) :
    first? ('\'' :: tail) = some (((Literal.body? tail).map literal).getD openQuote) := by
  have hb : isBlank '\'' = false := by decide
  have hw : isWordStart '\'' = false := by decide
  have hd : '\''.isDigit = false := by decide
  cases hbody : Literal.body? tail <;> simp [first?, hb, hw, hd, hbody]

/-- A segment that fits before what follows it is what the scanner takes. -/
theorem first?_of_fitsBefore {segment : Segment} {rest : List Char}
    (h : segment.FitsBefore rest) : first? (segment.text ++ rest) = some segment := by
  cases segment with
  | blank run =>
    obtain ⟨hne, hrun, hrest⟩ := h
    obtain ⟨c, cs, rfl⟩ := List.exists_cons_of_ne_nil hne
    have hb := hrun c List.mem_cons_self
    have htake := takeWhile_run (fun d hd => hrun d (List.mem_cons_of_mem _ hd)) hrest
    simp [text, first?, hb, htake]
  | word letters =>
    obtain ⟨hword, hrest⟩ := h
    cases letters with
    | nil => simp [isWord] at hword
    | cons c cs =>
      simp only [isWord, Bool.and_eq_true, List.all_eq_true] at hword
      have htake := takeWhile_run hword.2 hrest
      simp [text, first?, isBlank_of_wordStart hword.1, hword.1, htake]
  | digits run =>
    obtain ⟨hne, hrun, hrest⟩ := h
    obtain ⟨c, cs, rfl⟩ := List.exists_cons_of_ne_nil hne
    have hd := hrun c List.mem_cons_self
    have htake := takeWhile_run (fun d hd => hrun d (List.mem_cons_of_mem _ hd)) hrest
    simp [text, first?, isBlank_of_digit hd, isWordStart_of_digit hd, hd, htake]
  | mark m =>
    obtain ⟨hb, -, hw, hd, hq⟩ := classes_of_mark m
    simp [text, first?, hb, hw, hd, hq]
  | literal pieces =>
    have hbody := Literal.body?_inner h rest
    simp [text, Literal.text, first?_quote, hbody]
  | openQuote =>
    have hbody : Literal.body? rest = none := by
      rw [Option.eq_none_iff_forall_ne_some]
      intro pieces hsome
      obtain ⟨hfits, after, hrest⟩ := Literal.eq_inner_of_body? hsome
      exact h pieces after hfits hrest
    simp [text, first?_quote, hbody]
  | stray c =>
    obtain ⟨hb, hw, hd, hq, hm⟩ := h
    have hmark : Mark.ofChar? c = none := by
      rw [Option.eq_none_iff_forall_ne_some]
      intro m hsome
      exact hm m ((Mark.ofChar?_eq_some_iff c m).mp hsome)
    simp [text, first?, hb, hw, hd, hq, hmark]

theorem text_ne_nil {segment : Segment} {rest : List Char} (h : segment.FitsBefore rest) :
    segment.text ≠ [] :=
  (text_first? (first?_of_fitsBefore h)).1

end Segment

/-! ## The whole text -/

/-- A text falls into segments, one right after another, each reaching as far
as it must. -/
inductive Splits : List Char → List Segment → Prop
  | nil : Splits [] []
  | cons {segment : Segment} {rest : List Char} {segments : List Segment} :
      segment.FitsBefore rest → Splits rest segments →
      Splits (segment.text ++ rest) (segment :: segments)

theorem exists_splits (text : List Char) : ∃ segments, Splits text segments := by
  -- The rest after the first segment is shorter than the text.
  induction hn : text.length using Nat.strongRecOn generalizing text with
  | _ n ih =>
    cases hfirst : Segment.first? text with
    | none =>
      obtain rfl := (Segment.first?_eq_none_iff text).mp hfirst
      exact ⟨[], .nil⟩
    | some segment =>
      obtain ⟨rest, rfl, hfits⟩ := Segment.fitsBefore_of_first? hfirst
      have hpos := List.length_pos_iff.mpr (Segment.text_ne_nil hfits)
      obtain ⟨segments, hsegments⟩ :=
        ih rest.length (by simp only [List.length_append] at hn; omega) rest rfl
      exact ⟨segment :: segments, .cons hfits hsegments⟩

theorem Splits.text_eq {text : List Char} {segments : List Segment} (h : Splits text segments) :
    text = segments.flatMap Segment.text := by
  induction h with
  | nil => rfl
  | cons _ _ ih => simp [← ih]

theorem Splits.nil_text {text : List Char} (h : Splits text []) : text = [] := by
  simpa using h.text_eq

theorem Splits.unique {text : List Char} {segments others : List Segment}
    (h : Splits text segments) (h' : Splits text others) : segments = others := by
  induction h generalizing others with
  | nil =>
    generalize htext : ([] : List Char) = text at h'
    cases h' with
    | nil => rfl
    | cons hfits _ =>
      exact absurd (List.append_eq_nil_iff.mp htext.symm).1 (Segment.text_ne_nil hfits)
  | @cons segment rest segments hfits hrest ih =>
    generalize htext : segment.text ++ rest = text at h'
    cases h' with
    | nil => exact absurd (List.append_eq_nil_iff.mp htext).1 (Segment.text_ne_nil hfits)
    | @cons other rest' others hfits' hrest' =>
      have hfirst := Segment.first?_of_fitsBefore hfits
      rw [htext, Segment.first?_of_fitsBefore hfits'] at hfirst
      cases hfirst
      rw [ih (List.append_cancel_left htext ▸ hrest')]

end SelectQuery
