-- A reader of JSON. It takes a text exactly if the grammar gives the text a
-- value, and reads that value; so no text has two values.
import SelectQuery.Proofs.Json.Scalar

namespace SelectQuery

namespace Json

/-! ## Blanks -/

/-- The text after the blanks that it begins with. -/
def skipBlanks (text : List Char) : List Char :=
  text.dropWhile isSpace

theorem exists_blank_skipBlanks (text : List Char) :
    ∃ before, Blank before ∧ text = before ++ skipBlanks text :=
  ⟨text.takeWhile isSpace, fun _ hc => List.mem_takeWhile_imp hc,
    List.takeWhile_append_dropWhile.symm⟩

theorem skipBlanks_blank {before : List Char} (h : Blank before) {rest : List Char}
    (hrest : ∀ c ∈ rest.head?, isSpace c = false) : skipBlanks (before ++ rest) = rest :=
  dropWhile_run h hrest

theorem skipBlanks_blank_cons {before : List Char} (h : Blank before) {c : Char}
    (hc : isSpace c = false) (rest : List Char) :
    skipBlanks (before ++ c :: rest) = c :: rest := by
  apply skipBlanks_blank h
  intro d hd
  obtain rfl : c = d := by simpa using hd
  exact hc

/-- The characters that a value can begin with. -/
def isOpening (c : Char) : Bool :=
  c == '"' || c == '[' || c == '\x7b' || c == '-' || c.isDigit

theorem isOpening_of_isSpace {c : Char} (h : isSpace c = true) :
    c.isDigit = false ∧ isOpening c = false := by
  simp only [isSpace, Bool.or_eq_true, beq_iff_eq, or_assoc] at h
  rcases h with rfl | rfl | rfl | rfl <;> decide

/-- A number ends before blanks if it ends before what follows them. -/
theorem endsNumber_blank {after rest : List Char} (h : Blank after) (hrest : EndsNumber rest) :
    EndsNumber (after ++ rest) := by
  cases after with
  | nil => exact hrest
  | cons c after =>
    intro d hd
    obtain rfl : c = d := by simpa using hd
    exact (isOpening_of_isSpace (h c (by simp))).1

/-! ## Lists -/

section

variable {α : Type}

/-- Items with commas between them up to a closing bracket, and the bracket. -/
def readSeparated (read : List Char → Option (α × List Char)) (closing : Char)
    (text : List Char) : Option (List α × List Char) :=
  match read (skipBlanks text) with
  | none => none
  | some (a, rest) =>
    match skipBlanks rest with
    | [] => none
    | c :: rest =>
      if c = closing then some ([a], rest)
      else if _h : c = ',' ∧ rest.length < text.length then
        (readSeparated read closing rest).map fun p => (a :: p.1, p.2)
      else none
termination_by text.length
decreasing_by exact _h.2

/-- A list of items between its brackets. -/
def readBracketed (read : List Char → Option (α × List Char)) (opening closing : Char) :
    List Char → Option (List α × List Char)
  | [] => none
  | c :: text =>
    if c ≠ opening then none
    else if (skipBlanks text).head? = some closing then some ([], (skipBlanks text).tail)
    else readSeparated read closing text

variable {read : List Char → Option (α × List Char)} {Item : List Char → α → Prop}

/-- An item that is read after blanks, with the blanks after it. -/
theorem spaced_of_read (h : Sound read Item) {text : List Char} {a : α} {rest : List Char}
    (hread : read (skipBlanks text) = some (a, rest)) :
    ∃ letters, Spaced Item letters a ∧ text = letters ++ skipBlanks rest := by
  obtain ⟨before, hbefore, htext⟩ := exists_blank_skipBlanks text
  obtain ⟨letters, hitem, hletters⟩ := h hread
  obtain ⟨after, hafter, hrest⟩ := exists_blank_skipBlanks rest
  refine ⟨_, .mk hbefore hitem hafter, ?_⟩
  rw [htext, hletters, List.append_assoc, List.append_assoc, ← hrest]

theorem sound_readSeparated (h : Sound read Item) (closing : Char) :
    Sound (readSeparated read closing) fun letters items =>
      ∃ inner, Separated Item inner items ∧ letters = inner ++ [closing] := by
  intro text items rest hread
  fun_induction readSeparated read closing text generalizing items with
  | case1 => cases hread
  | case2 => cases hread
  | case3 text a rest' hread' rest'' hskip =>
    obtain ⟨rfl, rfl⟩ := Prod.mk.inj (Option.some.inj hread)
    obtain ⟨letters, hitem, rfl⟩ := spaced_of_read h hread'
    exact ⟨_, ⟨letters, .last hitem, rfl⟩, by simp [hskip]⟩
  | case4 text a rest' hread' rest'' c hskip hc hcomma ih =>
    obtain ⟨p, hp, heq⟩ := Option.map_eq_some_iff.1 hread
    obtain ⟨rfl, rfl⟩ := Prod.mk.inj heq
    obtain ⟨letters, hitem, rfl⟩ := spaced_of_read h hread'
    obtain ⟨_, ⟨inner, hinner, rfl⟩, rfl⟩ := ih hp
    obtain ⟨rfl, -⟩ := hcomma
    exact ⟨_, ⟨_, .cons hitem hinner, rfl⟩, by simp [hskip]⟩
  | case5 => cases hread

theorem sound_readBracketed (h : Sound read Item) (opening closing : Char) :
    Sound (readBracketed read opening closing) (Bracketed opening closing Item) := by
  intro text items rest hread
  cases text with
  | nil => cases hread
  | cons c text =>
    simp only [readBracketed] at hread
    split_ifs at hread with hopening hhead
    · obtain rfl := not_not.1 hopening
      obtain ⟨rfl, rfl⟩ := Prod.mk.inj (Option.some.inj hread)
      obtain ⟨before, hbefore, htext⟩ := exists_blank_skipBlanks text
      refine ⟨_, .empty hbefore, ?_⟩
      rw [List.cons_append, List.cons_append, List.append_assoc, List.singleton_append,
        List.cons_head?_tail hhead, ← htext]
    · obtain rfl := not_not.1 hopening
      obtain ⟨_, ⟨inner, hinner, rfl⟩, rfl⟩ := sound_readSeparated h closing hread
      exact ⟨_, .items hinner, rfl⟩

/-- In texts of at most `n` characters, every item is read. -/
def CompleteUpTo (n : Nat) (read : List Char → Option (α × List Char))
    (Item : List Char → α → Prop) : Prop :=
  ∀ ⦃letters : List Char⦄ ⦃a : α⦄ ⦃rest : List Char⦄, Item letters a → EndsNumber rest →
    (letters ++ rest).length ≤ n → read (letters ++ rest) = some (a, rest)

/-- Every item begins as a value does. -/
def Opens (Item : List Char → α → Prop) : Prop :=
  ∀ ⦃letters : List Char⦄ ⦃a : α⦄, Item letters a → ∃ c ∈ letters.head?, isOpening c = true

/-- The closing brackets. -/
def isClosing (c : Char) : Bool :=
  c == ']' || c == '\x7d'

theorem eq_of_isClosing {c : Char} (h : isClosing c = true) : c = ']' ∨ c = '\x7d' := by
  simpa [isClosing] using h

theorem skipBlanks_item (hopens : Opens Item) {before letters : List Char} {a : α}
    (hbefore : Blank before) (hitem : Item letters a) (rest : List Char) :
    skipBlanks (before ++ (letters ++ rest)) = letters ++ rest := by
  obtain ⟨c, hc, hopening⟩ := hopens hitem
  apply skipBlanks_blank hbefore
  intro d hd
  rw [List.head?_append, Option.mem_def.1 hc] at hd
  obtain rfl : c = d := by simpa using hd
  by_contra hspace
  rw [(isOpening_of_isSpace (by simpa using hspace)).2] at hopening
  cases hopening

/-- An item with blanks around it is read before a character that ends it. -/
theorem read_spaced {n : Nat} (h : CompleteUpTo n read Item) (hopens : Opens Item)
    {letters : List Char} {a : α} (hitem : Spaced Item letters a) {stop : Char}
    (hdigit : stop.isDigit = false) (hspace : isSpace stop = false) (rest : List Char)
    (hn : (letters ++ stop :: rest).length ≤ n) :
    ∃ tail, read (skipBlanks (letters ++ stop :: rest)) = some (a, tail) ∧
      skipBlanks tail = stop :: rest := by
  obtain @⟨before, letters, after, _, hbefore, hitem, hafter⟩ := hitem
  have hstop : EndsNumber (stop :: rest) := by
    intro c hc
    obtain rfl : stop = c := by simpa using hc
    exact hdigit
  refine ⟨after ++ stop :: rest, ?_, skipBlanks_blank_cons hafter hspace rest⟩
  rw [List.append_assoc, List.append_assoc, skipBlanks_item hopens hbefore hitem]
  apply h hitem (endsNumber_blank hafter hstop)
  simp only [List.length_append, List.length_cons] at hn ⊢
  omega

theorem readSeparated_separated {n : Nat} (h : CompleteUpTo n read Item) (hopens : Opens Item)
    {closing : Char} (hclosing : isClosing closing = true) {letters : List Char} {items : List α}
    (hitems : Separated Item letters items) (rest : List Char)
    (hn : (letters ++ closing :: rest).length ≤ n) :
    readSeparated read closing (letters ++ closing :: rest) = some (items, rest) := by
  have hclass : closing.isDigit = false ∧ isSpace closing = false ∧ ',' ≠ closing := by
    rcases eq_of_isClosing hclosing with rfl | rfl <;> decide
  induction hitems with
  | @last text a hitem =>
    obtain ⟨tail, hread, hskip⟩ := read_spaced h hopens hitem hclass.1 hclass.2.1 rest hn
    rw [readSeparated]
    simp [hread, hskip]
  | @cons text inner a items hitem _ ih =>
    rw [List.append_assoc, List.cons_append] at hn ⊢
    obtain ⟨tail, hread, hskip⟩ := read_spaced h hopens hitem (by decide) (by decide) _ hn
    have hinner : (inner ++ closing :: rest).length ≤ n := by
      simp only [List.length_append, List.length_cons] at hn ⊢
      omega
    have hshorter : (inner ++ closing :: rest).length
        < (text ++ ',' :: (inner ++ closing :: rest)).length := by
      simp only [List.length_append, List.length_cons]
      omega
    rw [readSeparated]
    simp only [hread, hskip, if_neg hclass.2.2, true_and, hshorter, dif_pos, ih hinner,
      Option.map_some]

theorem head_spaced (hopens : Opens Item) {letters : List Char} {a : α}
    (hitem : Spaced Item letters a) (rest : List Char) :
    ∃ c ∈ (skipBlanks (letters ++ rest)).head?, isOpening c = true := by
  obtain ⟨hbefore, hitem, -⟩ := hitem
  obtain ⟨c, hc, hopening⟩ := hopens hitem
  refine ⟨c, ?_, hopening⟩
  rw [List.append_assoc, List.append_assoc, skipBlanks_item hopens hbefore hitem,
    List.head?_append, Option.mem_def.1 hc]
  rfl

theorem head_separated (hopens : Opens Item) {letters : List Char} {items : List α}
    (hitems : Separated Item letters items) (rest : List Char) :
    ∃ c ∈ (skipBlanks (letters ++ rest)).head?, isOpening c = true := by
  cases hitems with
  | last hitem => exact head_spaced hopens hitem rest
  | cons hitem _ =>
    rw [List.append_assoc]
    exact head_spaced hopens hitem _

/-- What is left of a list after its opening bracket is one character shorter. -/
theorem completeUpTo_readBracketed {n : Nat} (h : CompleteUpTo n read Item)
    (hopens : Opens Item) (opening : Char) {closing : Char} (hclosing : isClosing closing = true) :
    CompleteUpTo (n + 1) (readBracketed read opening closing)
      (Bracketed opening closing Item) := by
  have hclass : isSpace closing = false ∧ isOpening closing = false := by
    rcases eq_of_isClosing hclosing with rfl | rfl <;> decide
  intro letters items rest hitems _ hn
  cases hitems with
  | @empty text hblank =>
    have hskip := skipBlanks_blank_cons hblank hclass.1 rest
    simp [readBracketed, hskip]
  | @items text _ hitems =>
    have hread := readSeparated_separated h hopens hclosing hitems rest (by simpa using hn)
    have hhead : (skipBlanks (text ++ closing :: rest)).head? ≠ some closing := by
      intro heq
      obtain ⟨c, hc, hopening⟩ := head_separated hopens hitems (closing :: rest)
      obtain rfl : closing = c := Option.some.inj (heq.symm.trans hc)
      rw [hclass.2] at hopening
      cases hopening
    simp [readBracketed, hhead, hread]

end

/-! ## Values -/

/-- A key and its value. -/
def readField (read : List Char → Option (Json × List Char)) (text : List Char) :
    Option ((String × Json) × List Char) :=
  match readQuoted text with
  | none => none
  | some (key, rest) =>
    match skipBlanks rest with
    | ':' :: rest => (read (skipBlanks rest)).map fun p => ((key, p.1), p.2)
    | _ => none

/-- A value. -/
def readValue (text : List Char) : Option (Json × List Char) :=
  -- What stands inside a value is shorter than the value.
  let inside (part : List Char) := if part.length < text.length then readValue part else none
  match text.head? with
  | some '"' => (readQuoted text).map fun p => (.string p.1, p.2)
  | some '[' => (readBracketed inside '[' ']' text).map fun p => (.array p.1, p.2)
  | some '\x7b' =>
    (readBracketed (readField inside) '\x7b' '\x7d' text).map fun p => (.object p.1, p.2)
  | _ => (readNumber text).map fun p => (.number p.1, p.2)
termination_by text.length

theorem head_quoted {letters : List Char} {s : String} (h : Quoted letters s) (rest : List Char) :
    (letters ++ rest).head? = some '"' := by
  obtain ⟨h⟩ := h
  rfl

theorem head_bracketed {α : Type} {Item : List Char → α → Prop} {opening closing : Char}
    {letters : List Char} {items : List α} (h : Bracketed opening closing Item letters items)
    (rest : List Char) : (letters ++ rest).head? = some opening := by
  cases h <;> rfl

theorem head_numeral {letters : List Char} {n : Int} (h : Numeral letters n) (rest : List Char) :
    ∃ c, (letters ++ rest).head? = some c ∧ (c = '-' ∨ c.isDigit = true) := by
  cases h with
  | natural h =>
    cases letters with
    | nil => exact absurd rfl h.ne_nil
    | cons c digits => exact ⟨c, rfl, .inr (h.digit c (by simp))⟩
  | negative h => exact ⟨'-', rfl, .inl rfl⟩

theorem opens_denotes : Opens Denotes := by
  intro letters value h
  rw [← List.append_nil letters]
  cases h with
  | number h =>
    obtain ⟨c, hc, hnumber⟩ := head_numeral h []
    refine ⟨c, hc, ?_⟩
    rcases hnumber with rfl | hdigit
    · decide
    · simp [isOpening, hdigit]
  | string h => exact ⟨'"', head_quoted h [], by decide⟩
  | array h => exact ⟨'[', head_bracketed h [], by decide⟩
  | object h => exact ⟨'\x7b', head_bracketed h [], by decide⟩

section

variable {read : List Char → Option (Json × List Char)} {Item : List Char → Json → Prop}

theorem opens_field : Opens (Field Item) := by
  rintro letters field ⟨hkey, -, -, -⟩
  rw [List.append_assoc, List.append_assoc]
  exact ⟨'"', head_quoted hkey _, by decide⟩

theorem sound_readField (h : Sound read Item) : Sound (readField read) (Field Item) := by
  intro text field rest hread
  unfold readField at hread
  split at hread
  · cases hread
  · next key tail hkey =>
    split at hread
    · next tail' hskip =>
      obtain ⟨p, hp, heq⟩ := Option.map_eq_some_iff.1 hread
      obtain ⟨rfl, rfl⟩ := Prod.mk.inj heq
      obtain ⟨quoted, hquoted, rfl⟩ := sound_readQuoted hkey
      obtain ⟨before, hbefore, htail⟩ := exists_blank_skipBlanks tail
      obtain ⟨after, hafter, htail'⟩ := exists_blank_skipBlanks tail'
      obtain ⟨letters, hitem, hletters⟩ := h hp
      refine ⟨_, .mk hquoted hbefore hafter hitem, ?_⟩
      rw [htail, hskip, htail', hletters]
      simp
    · cases hread

theorem completeUpTo_readField {n : Nat} (h : CompleteUpTo n read Item) (hopens : Opens Item) :
    CompleteUpTo n (readField read) (Field Item) := by
  intro letters field rest hfield hrest hn
  obtain @⟨quoted, before, after, letters, key, value, hkey, hbefore, hafter, hitem⟩ := hfield
  have hread : read (letters ++ rest) = some (value, rest) := by
    apply h hitem hrest
    simp only [List.length_append, List.length_cons] at hn ⊢
    omega
  have hquoted := readQuoted_quoted hkey (before ++ ':' :: (after ++ (letters ++ rest)))
  have hcolon := skipBlanks_blank_cons hbefore (by decide : isSpace ':' = false)
    (after ++ (letters ++ rest))
  have hvalue := skipBlanks_item hopens hafter hitem rest
  simp [readField, hquoted, hcolon, hvalue, hread]

end

theorem sound_readValue : Sound readValue Denotes := by
  -- By induction on the length: the parts inside a value are read from shorter texts.
  intro text
  induction hlength : text.length using Nat.strongRecOn generalizing text with
  | _ n ih =>
    subst hlength
    intro value rest h
    have hinside : Sound (fun part : List Char =>
        if part.length < text.length then readValue part else none) Denotes := by
      intro part a tail hpart
      dsimp only at hpart
      split at hpart
      · next hshorter => exact ih _ hshorter rfl hpart
      · cases hpart
    rw [readValue] at h
    split at h
    · exact sound_readQuoted.map Json.string (fun _ _ => .string) h
    · exact (sound_readBracketed hinside '[' ']').map Json.array (fun _ _ => .array) h
    · exact (sound_readBracketed (sound_readField hinside) '\x7b' '\x7d').map Json.object
        (fun _ _ => .object) h
    · exact sound_readNumber.map Json.number (fun _ _ => .number) h

theorem completeUpTo_readValue (n : Nat) : CompleteUpTo n readValue Denotes := by
  -- By induction on the bound, as the opening bracket takes one character.
  induction n with
  | zero =>
    intro letters value rest h _ hn
    obtain ⟨c, hc, -⟩ := opens_denotes h
    simp_all
  | succ n ih =>
    intro letters value rest h hrest hn
    have hinside : CompleteUpTo ((letters ++ rest).length - 1) (fun part : List Char =>
        if part.length < (letters ++ rest).length then readValue part else none) Denotes := by
      intro letters' value' rest' h' hrest' hn'
      have hpos : 0 < (letters ++ rest).length := by
        obtain ⟨c, hc, -⟩ := opens_denotes h
        cases letters <;> simp_all
      dsimp only
      rw [if_pos (by omega)]
      exact ih h' hrest' (by omega)
    rw [readValue]
    cases h with
    | number h =>
      obtain ⟨c, hc, hnumber⟩ := head_numeral h rest
      have hother : c ≠ '"' ∧ c ≠ '[' ∧ c ≠ '\x7b' := by
        rcases hnumber with rfl | hdigit
        · decide
        · refine ⟨?_, ?_, ?_⟩ <;> rintro rfl <;> exact absurd hdigit (by decide)
      rw [hc]
      split
      · next heq => exact absurd (Option.some.inj heq) hother.1
      · next heq => exact absurd (Option.some.inj heq) hother.2.1
      · next heq => exact absurd (Option.some.inj heq) hother.2.2
      · rw [readNumber_numeral h hrest]
        rfl
    | string h =>
      simp only [head_quoted h rest, readQuoted_quoted h rest, Option.map_some]
    | array h =>
      have hread := completeUpTo_readBracketed hinside opens_denotes '['
        (by decide : isClosing ']' = true) h hrest (by omega)
      simp only [head_bracketed h rest, hread, Option.map_some]
    | object h =>
      have hread := completeUpTo_readBracketed (completeUpTo_readField hinside opens_denotes)
        opens_field '\x7b' (by decide : isClosing '\x7d' = true) h hrest (by omega)
      simp only [head_bracketed h rest, hread, Option.map_some]

/-- The value of a text. -/
def read? (text : String) : Option Json :=
  match readValue (skipBlanks text.toList) with
  | none => none
  | some (value, rest) => if skipBlanks rest = [] then some value else none

/-- The reader reads the value of a text, and nothing else. -/
theorem read?_eq_some_iff {text : String} {value : Json} :
    read? text = some value ↔ IsTextOf text value := by
  unfold read? IsTextOf
  constructor
  · intro h
    split at h
    · cases h
    · next value' rest hread =>
      split at h
      · next hrest =>
        obtain rfl := Option.some.inj h
        obtain ⟨letters, hletters, htext⟩ := spaced_of_read sound_readValue hread
        rw [htext, hrest, List.append_nil]
        exact hletters
      · cases h
  · intro h
    generalize text.toList = chars at h ⊢
    obtain @⟨before, letters, after, _, hbefore, hvalue, hafter⟩ := h
    have hskip := skipBlanks_item opens_denotes hbefore hvalue after
    have hread : readValue (letters ++ after) = some (value, after) := by
      rw [← List.append_nil after]
      apply completeUpTo_readValue _ hvalue _ (Nat.le_refl _)
      exact endsNumber_blank hafter (by simp [EndsNumber])
    have hend : skipBlanks after = [] := by
      rw [← List.append_nil after]
      exact skipBlanks_blank hafter (by simp)
    simp [hskip, hread, hend]

end Json

end SelectQuery
