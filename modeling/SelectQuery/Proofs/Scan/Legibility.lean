-- A listing can be told from its lines. Each part of a line ends where no part of
-- its kind can go on, so lines that are alike have the same parts. And the line of a
-- token never begins as the line of a problem does.
import SelectQuery.Proofs.Json.Grammar
import SelectQuery.Proofs.Scan.Listing
import Mathlib.Data.List.Basic
import Std.Data.String.ToInt

namespace SelectQuery

/-! ## Where a part ends -/

section Parts

variable {α : Type} {p : α → Bool} {run other rest more : List α}

/-- Of two texts that are alike, the longest runs at the start are alike. -/
theorem run_append_inj (hrun : ∀ a ∈ run, p a = true) (hrest : ∀ a ∈ rest.head?, p a = false)
    (hother : ∀ a ∈ other, p a = true) (hmore : ∀ a ∈ more.head?, p a = false)
    (h : run ++ rest = other ++ more) : run = other ∧ rest = more := by
  have hsame : run = other := by
    rw [← Segment.takeWhile_run hrun hrest, h, Segment.takeWhile_run hother hmore]
  subst hsame
  exact ⟨rfl, List.append_cancel_left h⟩

/-- And so are those at the end. -/
theorem append_run_inj (hrun : ∀ a ∈ run, p a = true)
    (hrest : ∀ a ∈ rest.getLast?, p a = false) (hother : ∀ a ∈ other, p a = true)
    (hmore : ∀ a ∈ more.getLast?, p a = false) (h : rest ++ run = more ++ other) :
    rest = more ∧ run = other := by
  have hreverse : run.reverse ++ rest.reverse = other.reverse ++ more.reverse := by
    rw [← List.reverse_append, ← List.reverse_append, h]
  obtain ⟨hruns, hrests⟩ := run_append_inj (p := p) (by simpa using hrun)
    (by simpa using hrest) (by simpa using hother) (by simpa using hmore) hreverse
  exact ⟨List.reverse_inj.mp hrests, List.reverse_inj.mp hruns⟩

end Parts

/-! ## Numbers -/

theorem digitChar_inj {m n : Nat} (hm : m < 16) (hn : n < 16)
    (h : m.digitChar = n.digitChar) : m = n := by
  have hvalue := Json.hexValue?_digitChar hm
  rw [h, Json.hexValue?_digitChar hn] at hvalue
  exact (Option.some.inj hvalue).symm

/-- A number can be told from its digits. -/
theorem toDigits_inj {base m n : Nat} (hbase : 1 < base) (hle : base ≤ 16)
    (h : Nat.toDigits base m = Nat.toDigits base n) : m = n := by
  induction m using Nat.strongRecOn generalizing n with
  | _ m ih =>
    rw [Nat.toDigits_eq_if hbase, Nat.toDigits_eq_if hbase (n := n)] at h
    have hfront : ∀ k, Nat.toDigits base k ≠ [] := fun _ => Nat.toDigits_ne_nil
    have hmod : ∀ k, k % base < 16 := fun k =>
      Nat.lt_of_lt_of_le (Nat.mod_lt k (by omega)) hle
    split at h <;> split at h
    · exact digitChar_inj (by omega) (by omega) (List.singleton_inj.mp h)
    · simp [List.singleton_eq_append_iff, hfront] at h
    · simp [List.append_eq_singleton_iff, hfront] at h
    · obtain ⟨hdiv, hlast⟩ := List.append_inj' h rfl
      have hquotient := ih (m / base) (Nat.div_lt_self (by omega) hbase) hdiv
      have hrest := digitChar_inj (hmod m) (hmod n) (List.singleton_inj.mp hlast)
      rw [← Nat.div_add_mod m base, hquotient, hrest, Nat.div_add_mod]

theorem isDigit_of_mem_decimal {n : Nat} {c : Char} (h : c ∈ Nat.toDigits 10 n) :
    c.isDigit = true :=
  Nat.isDigit_of_mem_toDigits (by decide) (by decide) h

/-! ## Quoted texts -/

/-- The characters that have an escape of their own, each with its letter. -/
def namedEscapes : List (Char × Char) :=
  [('\x00', '0'), ('\t', 't'), ('\r', 'r'), ('\n', 'n'), ('\\', '\\'), ('"', '"')]

/-- The shapes of a character between double quotes. -/
inductive StandsAs : Char → List Char → Prop
  | plain {c : Char} (hback : c ≠ '\\') (hquote : c ≠ '"') : StandsAs c [c]
  | named {c letter : Char} (h : (c, letter) ∈ namedEscapes) : StandsAs c ['\\', letter]
  | code (c : Char) : StandsAs c (codePointEscape c)

theorem standsAs_quotedChar (c : Char) : StandsAs c (quotedChar c) := by
  fun_cases quotedChar c with
  | case7 c _ _ _ _ hback hquote _ => exact .plain hback hquote
  | case8 c => exact .code c
  | _ => exact .named (by decide)

/-- Whatever its shape, no character begins as the closing quote does. -/
theorem StandsAs.head {c : Char} {shape rest : List Char} (h : StandsAs c shape) :
    (shape ++ rest).head? ≠ some '"' := by
  cases h with
  | plain _ hquote => simpa using hquote
  | named _ => simp
  | code => simp [codePointEscape]

theorem codePointEscape_append_inj {c d : Char} {rest more : List Char}
    (h : codePointEscape c ++ rest = codePointEscape d ++ more) : c = d ∧ rest = more := by
  have hdigits : ∀ n, ∀ e ∈ Nat.toDigits 16 n, (e != '\x7d') = true := by
    intro n e he
    obtain ⟨digit, rfl⟩ := eq_digitChar_of_mem (by decide) he
    exact bne_iff_ne.mpr (Nat.digitChar_ne '\x7d' (by decide))
  simp only [codePointEscape, List.cons_append, List.nil_append, List.append_assoc,
    List.cons.injEq, true_and] at h
  obtain ⟨hcode, hrest⟩ := run_append_inj (hdigits _) (by simp) (hdigits _) (by simp) h
  exact ⟨Char.toNat_inj.mp (toDigits_inj (by decide) (by decide) hcode), (List.cons.inj hrest).2⟩

/-- The shapes of two characters are alike, whatever follows them, only if the
characters are the same. -/
theorem StandsAs.append_inj {c d : Char} {shape other rest more : List Char}
    (h : StandsAs c shape) (h' : StandsAs d other) (heq : shape ++ rest = other ++ more) :
    c = d ∧ rest = more := by
  have hletters : ∀ e ∈ namedEscapes, ∀ f ∈ namedEscapes, e.2 = f.2 → e.1 = f.1 := by decide
  have hnot : ∀ e ∈ namedEscapes, e.2 ≠ 'u' := by decide
  cases h with
  | plain hback _ =>
    cases h' with
    | plain => simpa using heq
    | named => exact absurd (List.cons.inj heq).1 hback
    | code => exact absurd (List.cons.inj heq).1 hback
  | named hc =>
    cases h' with
    | plain hback _ => exact absurd (List.cons.inj heq).1.symm hback
    | named hd =>
      simp only [List.cons_append, List.nil_append, List.cons.injEq, true_and] at heq
      exact ⟨hletters _ hc _ hd heq.1, heq.2⟩
    | code =>
      simp only [codePointEscape, List.cons_append, List.cons.injEq, true_and] at heq
      exact absurd heq.1 (hnot _ hc)
  | code =>
    cases h' with
    | plain hback _ => exact absurd (List.cons.inj heq).1.symm hback
    | named hd =>
      simp only [codePointEscape, List.cons_append, List.cons.injEq, true_and] at heq
      exact absurd heq.1.symm (hnot _ hd)
    | code => exact codePointEscape_append_inj heq

/-- A text can be told from how it stands between double quotes. -/
theorem quoted_inj {text other : String} (h : quoted text = quoted other) : text = other := by
  have hinner : text.toList.flatMap quotedChar ++ ['"'] =
      other.toList.flatMap quotedChar ++ ['"'] := by
    simpa [quoted] using congrArg String.toList h
  apply String.toList_inj.mp
  generalize text.toList = cs, other.toList = ds at hinner
  -- The closing quote ends a text: no character begins as it does.
  induction cs generalizing ds with
  | nil =>
    cases ds with
    | nil => rfl
    | cons d ds =>
      rw [List.flatMap_cons, List.append_assoc] at hinner
      exact absurd (congrArg List.head? hinner).symm (standsAs_quotedChar d).head
  | cons c cs ih =>
    cases ds with
    | nil =>
      rw [List.flatMap_cons, List.append_assoc] at hinner
      exact absurd (congrArg List.head? hinner) (standsAs_quotedChar c).head
    | cons d ds =>
      rw [List.flatMap_cons, List.append_assoc, List.flatMap_cons, List.append_assoc] at hinner
      obtain ⟨hchar, hmore⟩ := (standsAs_quotedChar c).append_inj (standsAs_quotedChar d) hinner
      rw [hchar, ih ds hmore]

/-! ## Lines of tokens -/

namespace Token

namespace Kind

/-- The kinds that have no content. -/
def bare : List Kind :=
  Keyword.all.map keyword ++ Mark.all.map mark ++ [endOfInput]

theorem mem_bare {kind : Kind} (h : kind.content? = none) : kind ∈ bare := by
  unfold bare
  cases kind with
  | keyword k => simp [Keyword.mem_all]
  | mark m => simp [Mark.mem_all]
  | endOfInput => simp
  | name _ => cases h
  | number _ => cases h
  | string _ => cases h

/-- A kind can be told from its label and its content. -/
theorem label_content_inj {kind other : Kind} (hlabel : kind.label = other.label)
    (hcontent : kind.content? = other.content?) : kind = other := by
  have hbare : ∀ k ∈ bare, ∀ l ∈ bare, k.label = l.label → k = l := by decide
  cases hkind : kind.content? with
  | none => exact hbare _ (mem_bare hkind) _ (mem_bare (hcontent ▸ hkind)) hlabel
  | some content =>
    have hother := hcontent ▸ hkind
    -- The kinds with a content have three different labels.
    cases kind with
    | name n =>
      cases other with
      | name m => exact congrArg _ (Option.some.inj hcontent)
      | number _ => exact absurd hlabel (by decide : "NAME" ≠ "NUMBER")
      | string _ => exact absurd hlabel (by decide : "NAME" ≠ "STRING")
      | keyword _ | mark _ | endOfInput => cases hother
    | number n =>
      cases other with
      | number m =>
        exact congrArg _ (Int64.toInt_inj.mp (Int.repr_inj.mp (Option.some.inj hcontent)))
      | name _ => exact absurd hlabel (by decide : "NUMBER" ≠ "NAME")
      | string _ => exact absurd hlabel (by decide : "NUMBER" ≠ "STRING")
      | keyword _ | mark _ | endOfInput => cases hother
    | string s =>
      cases other with
      | string t => exact congrArg _ (quoted_inj (Option.some.inj hcontent))
      | name _ => exact absurd hlabel (by decide : "STRING" ≠ "NAME")
      | number _ => exact absurd hlabel (by decide : "STRING" ≠ "NUMBER")
      | keyword _ | mark _ | endOfInput => cases hother
    | keyword _ | mark _ | endOfInput => cases hkind

/-- What stands after the label: the content behind a space. -/
def contentTail (kind : Kind) : List Char :=
  match kind.content? with
  | some content => ' ' :: content.toList
  | none => []

theorem contentTail_inj {kind other : Kind} (h : kind.contentTail = other.contentTail) :
    kind.content? = other.content? := by
  unfold contentTail at h
  cases hkind : kind.content? with
  | none =>
    cases hother : other.content? with
    | none => rfl
    | some content => simp [hkind, hother] at h
  | some content =>
    cases hother : other.content? with
    | none => simp [hkind, hother] at h
    | some more =>
      simp only [hkind, hother, List.cons.injEq, true_and] at h
      rw [String.toList_inj.mp h]

theorem head_contentTail (kind : Kind) : ∀ c ∈ kind.contentTail.head?, (c != ' ') = false := by
  unfold contentTail
  cases kind.content? <;> simp

/-- No label has a space in it. -/
theorem ne_space_of_mem_label {kind : Kind} {c : Char} (h : c ∈ kind.label.toList) :
    (c != ' ') = true := by
  have hnot : ' ' ∉ kind.label.toList := by
    cases kind with
    | keyword k => cases k <;> decide
    | mark m => cases m <;> decide
    | name _ => exact (by decide : ' ' ∉ "NAME".toList)
    | number _ => exact (by decide : ' ' ∉ "NUMBER".toList)
    | string _ => exact (by decide : ' ' ∉ "STRING".toList)
    | endOfInput => decide
  rw [bne_iff_ne]
  rintro rfl
  exact hnot h

end Kind

/-- The parts of the line of a token, one after another. -/
theorem toList_listingLine (token : Token) :
    ∃ width, token.listingLine.toList = List.replicate width ' ' ++
      (Nat.toDigits 10 token.line ++
        ' ' :: (token.kind.label.toList ++ token.kind.contentTail)) := by
  refine ⟨4 - (toString token.line).length, ?_⟩
  unfold listingLine alignRight Kind.contentTail
  cases token.kind.content? <;> simp [Json.toList_pushn]

/-- The first digit of a number ends the spaces before it. -/
theorem head_decimal {n : Nat} {rest : List Char} :
    ∀ c ∈ (Nat.toDigits 10 n ++ rest).head?, (c == ' ') = false := by
  intro c hc
  rw [List.head?_append_of_ne_nil _ Nat.toDigits_ne_nil] at hc
  have hdigit := isDigit_of_mem_decimal (List.mem_of_mem_head? hc)
  rw [beq_eq_false_iff_ne]
  rintro rfl
  exact absurd hdigit (by decide)

/-- A token can be told from its line. -/
theorem listingLine_inj {token other : Token} (h : token.listingLine = other.listingLine) :
    token = other := by
  obtain ⟨width, htoken⟩ := token.toList_listingLine
  obtain ⟨width', hother⟩ := other.toList_listingLine
  have hspace : ∀ n, ∀ c ∈ List.replicate n ' ', (c == ' ') = true := by simp
  have hblank : ∀ rest : List Char, ∀ c ∈ (' ' :: rest).head?, c.isDigit = false := by
    intro rest c hc
    cases hc
    decide
  rw [← String.toList_inj, htoken, hother] at h
  obtain ⟨-, h⟩ := run_append_inj (hspace _) head_decimal (hspace _) head_decimal h
  obtain ⟨hdigits, h⟩ := run_append_inj (fun _ => isDigit_of_mem_decimal) (hblank _)
    (fun _ => isDigit_of_mem_decimal) (hblank _) h
  obtain ⟨hlabel, htail⟩ := run_append_inj (fun _ => Kind.ne_space_of_mem_label)
    (Kind.head_contentTail _) (fun _ => Kind.ne_space_of_mem_label) (Kind.head_contentTail _)
    (List.cons.inj h).2
  have hkind := Kind.label_content_inj (String.toList_inj.mp hlabel) (Kind.contentTail_inj htail)
  have hline := toDigits_inj (by decide) (by decide) hdigits
  cases token
  cases other
  simp_all

end Token

/-! ## Lines of problems -/

namespace Diagnostic

/-- How the description of a cause begins. -/
def Cause.opening : Cause → List Char
  | illegalCharacter _ => ['I', 'l', 'l']
  | unterminatedString => ['U', 'n', 't']
  | invalidEscape _ => ['I', 'n', 'v']
  | numberOutOfRange _ => ['I', 'n', 't']

theorem Cause.take_describe (cause : Cause) : cause.describe.toList.take 3 = cause.opening := by
  unfold describe
  cases cause with
  | unterminatedString => decide
  | _ =>
    simp only [String.append_assoc, String.toList_append]
    rw [List.take_append_of_le_length (by decide), opening]
    decide

/-- A cause can be told from its description. -/
theorem Cause.describe_inj {cause other : Cause} (h : cause.describe = other.describe) :
    cause = other := by
  have hopening : cause.opening = other.opening := by
    rw [← take_describe, h, take_describe]
  unfold describe at h
  cases cause with
  | illegalCharacter c =>
    cases other with
    | illegalCharacter d =>
      rw [String.append_left_inj, String.append_right_inj] at h
      exact congrArg _ (String.singleton_inj.mp h)
    | _ => simp [opening] at hopening
  | unterminatedString =>
    cases other with
    | unterminatedString => rfl
    | _ => simp [opening] at hopening
  | invalidEscape c =>
    cases other with
    | invalidEscape d =>
      rw [String.append_left_inj, String.append_right_inj] at h
      exact congrArg _ (String.singleton_inj.mp h)
    | _ => simp [opening] at hopening
  | numberOutOfRange literal =>
    cases other with
    | numberOutOfRange more =>
      rw [String.append_left_inj, String.append_right_inj] at h
      exact congrArg _ h
    | _ => simp [opening] at hopening

/-- A problem can be told from its line. The number of the line is the run of digits
at the end, whatever digits the description has. -/
theorem listingLine_inj {d other : Diagnostic} (h : d.listingLine = other.listingLine) :
    d = other := by
  have hlast : ∀ front : String, ∀ c ∈ (front ++ " at line ").toList.getLast?,
      c.isDigit = false := by
    intro front c hc
    rw [String.toList_append, List.getLast?_append_of_ne_nil _ (by decide)] at hc
    cases hc
    decide
  have hdecimal : ∀ n : Nat, (toString n).toList = Nat.toDigits 10 n := fun _ => Nat.toList_repr
  unfold listingLine message at h
  rw [String.append_right_inj, ← String.toList_inj, String.toList_append, hdecimal,
    String.toList_append (t := toString other.line), hdecimal] at h
  obtain ⟨hfront, hdigits⟩ := append_run_inj (fun _ => isDigit_of_mem_decimal) (hlast _)
    (fun _ => isDigit_of_mem_decimal) (hlast _) h
  have hcause := Cause.describe_inj ((String.append_left_inj _).mp (String.toList_inj.mp hfront))
  have hline := toDigits_inj (by decide) (by decide) hdigits
  cases d
  cases other
  simp_all

end Diagnostic

/-! ## The law -/

/-- The line begins as that of a problem. -/
def isProblemLine (line : String) : Bool :=
  line.toList.head? == some 'e'

theorem isProblemLine_diagnostic (d : Diagnostic) : isProblemLine d.listingLine = true := by
  unfold isProblemLine Diagnostic.listingLine
  rw [String.toList_append]
  rfl

theorem isProblemLine_token (token : Token) : isProblemLine token.listingLine = false := by
  obtain ⟨width, hline⟩ := token.toList_listingLine
  unfold isProblemLine
  rw [hline, beq_eq_false_iff_ne]
  cases width with
  | zero =>
    intro hhead
    rw [List.replicate_zero, List.nil_append,
      List.head?_append_of_ne_nil _ Nat.toDigits_ne_nil] at hhead
    exact absurd (isDigit_of_mem_decimal (List.mem_of_mem_head? hhead)) (by decide)
  | succ width => simp [List.replicate_succ]

/-- Two listings with the same lines are the same. The lines say how many tokens and
problems there are and what each of them is, with its content and its line, whatever
the texts and characters in them. -/
theorem a_listing_can_be_told_from_its_lines (listing other : Listing) :
    listing.lines = other.lines ↔ listing = other := by
  constructor
  · intro h
    have htokens : ∀ tokens : List Token, ∀ line ∈ tokens.map Token.listingLine,
        (!isProblemLine line) = true := by
      simp [isProblemLine_token]
    have hproblems : ∀ ds : List Diagnostic, ∀ line ∈ (ds.map Diagnostic.listingLine).head?,
        (!isProblemLine line) = false := by
      intro ds line hline
      obtain ⟨d, -, rfl⟩ := List.mem_map.mp (List.mem_of_mem_head? hline)
      simp [isProblemLine_diagnostic]
    obtain ⟨hfront, hback⟩ :=
      run_append_inj (htokens _) (hproblems _) (htokens _) (hproblems _) h
    have hsame := List.map_injective_iff.mpr (fun _ _ => Token.listingLine_inj) hfront
    have hrest := List.map_injective_iff.mpr (fun _ _ => Diagnostic.listingLine_inj) hback
    cases listing
    cases other
    simp_all
  · rintro rfl
    rfl

end SelectQuery
