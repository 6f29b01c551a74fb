-- The laws of brevity. A condition is written with no more parentheses than it
-- needs: no other tokens that are read as the condition are fewer, and none are
-- as few. So each pair that is written is needed.
import SelectQuery.Proofs.Grammar.Parentheses
import SelectQuery.Proofs.Query.Writing

namespace SelectQuery

/-! ## Fewer tokens -/

/-- The first list is no longer than the second, and as long only if the two are
the same. -/
def Briefer (v w : List Token.Kind) : Prop :=
  v.length ≤ w.length ∧ (w.length = v.length → w = v)

namespace Briefer

variable {u v w : List Token.Kind}

theorem refl (w : List Token.Kind) : Briefer w w :=
  ⟨Nat.le_refl _, fun _ => rfl⟩

theorem trans (h : Briefer u v) (h' : Briefer v w) : Briefer u w := by
  obtain ⟨hle, heq⟩ := h
  obtain ⟨hle', heq'⟩ := h'
  refine ⟨Nat.le_trans hle hle', ?_⟩
  intro hlength
  rw [heq' (by omega), heq (by omega)]

/-- What is briefer in each of two parts is briefer as a whole. -/
theorem append {v' w' : List Token.Kind} (h : Briefer v w) (h' : Briefer v' w') :
    Briefer (v ++ v') (w ++ w') := by
  obtain ⟨hle, heq⟩ := h
  obtain ⟨hle', heq'⟩ := h'
  unfold Briefer
  simp only [List.length_append]
  refine ⟨by omega, ?_⟩
  intro hlength
  rw [heq (by omega), heq' (by omega)]

/-- Fewer pairs around the same tokens are briefer. -/
theorem of_pairs_le {m n : Nat} (h : m ≤ n) (w : List Token.Kind) :
    Briefer (parenthesized m w) (parenthesized n w) := by
  unfold Briefer parenthesized
  simp only [List.length_append, List.length_replicate]
  refine ⟨by omega, ?_⟩
  intro hlength
  have hpairs : n = m := by omega
  rw [hpairs]

theorem eq_of_sublist (h : Briefer v w) (hsub : w.Sublist v) : w = v :=
  hsub.eq_of_length_le h.1

end Briefer

/-! ## The written form -/

namespace Condition

theorem needsParens_left_iff (op : Operator) (c : Condition) :
    c.needsParens .left op = true ↔ ∃ o ∈ c.root?, o.Looser op := by
  cases c with
  | value v => simp [needsParens, root?]
  | binary o left right => simp [needsParens, root?, Operator.looser_iff]

theorem needsParens_right_iff (op : Operator) (c : Condition) :
    c.needsParens .right op = true ↔ ∃ o ∈ c.root?, ¬ op.Looser o := by
  cases c with
  | value v => simp [needsParens, root?]
  | binary o left right => simp [needsParens, root?, Operator.looser_iff]

theorem kinds_enclose (parens : Bool) (p : Phrase) :
    (enclose parens p).kinds = parenthesized parens.toNat p.kinds := by
  cases parens with
  | false => simp [enclose]
  | true => simp [enclose, Phrase.kinds, parenthesized]

/-- An operand that is written with the pair it needs, if it needs one, is briefer
than in a rendering that has all the pairs it needs. -/
theorem briefer_enclose {c : Condition} {pairs : Nat} {w : List Token.Kind}
    (h : Briefer (parenthesized pairs c.phrase.kinds) w) (parens : Bool)
    (hneeds : parens = true → 0 < pairs) :
    Briefer (enclose parens c.phrase).kinds w := by
  rw [kinds_enclose]
  refine Briefer.trans (Briefer.of_pairs_le ?_ _) h
  cases parens with
  | false => exact Nat.zero_le _
  | true => exact hneeds rfl

end Condition

/-- The written form with the pairs that a rendering has around all of it is
briefer than the rendering. -/
theorem Renders.briefer {pairs : Nat} {c : Condition} {w : List Token.Kind}
    (h : Renders pairs c w) : Briefer (parenthesized pairs c.phrase.kinds) w := by
  induction h with
  | value pairs v => exact Briefer.refl _
  | @binary pairs op left right leftPairs rightPairs before after _ _ hneedsLeft hneedsRight ihl
      ihr =>
    have hleft : Briefer (Condition.enclose (left.needsParens .left op) left.phrase).kinds
        before := by
      apply Condition.briefer_enclose ihl
      intro hparens
      obtain ⟨o, ho, hlooser⟩ := (Condition.needsParens_left_iff op left).mp hparens
      exact hneedsLeft o ho hlooser
    have hright : Briefer (Condition.enclose (right.needsParens .right op) right.phrase).kinds
        after := by
      apply Condition.briefer_enclose ihr
      intro hparens
      obtain ⟨o, ho, hnot⟩ := (Condition.needsParens_right_iff op right).mp hparens
      exact hneedsRight o ho hnot
    have hinner := hleft.append ((Briefer.refl [op.kind]).append hright)
    exact ((Briefer.refl _).append hinner).append (Briefer.refl _)

/-- A phrase of a condition that respects the binding of operators has no fewer
tokens than the written form. -/
theorem Phrase.briefer {p : Phrase} (h : p.Respects) :
    Briefer p.condition.phrase.kinds p.kinds := by
  obtain ⟨pairs, hrenders, -⟩ := p.exists_renders h
  have houter := Briefer.of_pairs_le (Nat.zero_le pairs) p.condition.phrase.kinds
  rw [parenthesized_zero] at houter
  exact houter.trans hrenders.briefer

/-! ## The tokens of a text -/

theorem kindsOf_sql {c : Condition} (h : c.WellFormed) :
    (tokenize c.sql).2 = [] ∧ kindsOf c.sql = c.phrase.kinds ++ [.endOfInput] := by
  apply kindsOf_of_spells
  simpa using spells_condition h apart_nil

/-- If a condition is read from a text up to the end, its phrase has all tokens of
the text. -/
theorem exists_phrase_of_text {text : String} {c : Condition} {after : Reader}
    (hrun : Grammar.condition.run (Reader.ofText text) = (.ok c, after))
    (hend : after.current.kind = .endOfInput) :
    ∃ p : Phrase, p.Respects ∧ p.condition = c ∧ p.kinds ++ [.endOfInput] = kindsOf text := by
  obtain ⟨p, hrespects, hcondition, hreads⟩ := Grammar.exists_phrase_of_run hrun
  refine ⟨p, hrespects, hcondition, ?_⟩
  have hends : Ends (p.kinds ++ [.endOfInput]) := ⟨p.kinds, rfl, p.kinds_ne_end⟩
  have hall : Reads (Reader.ofText text) (p.kinds ++ [.endOfInput]) (advance after) :=
    reads_append.mpr ⟨after, hreads, hend, rfl⟩
  rcases prefix_of_reads hall (reads_ofText text) with h | h
  · exact Ends.eq_of_prefix hends (ends_kindsOf text) h
  · symm
    exact Ends.eq_of_prefix (ends_kindsOf text) hends h

/-! ## The law -/

/-- The text of a condition is read as the condition, up to the end. Whatever other
tokens before an end are read as the condition, all of them, are more; and none of
the tokens of the text can be left out. So it is for every source of tokens, and
for the reader of any text. -/
theorem a_condition_is_written_in_the_fewest_tokens (c : Condition) (hc : c.WellFormed) :
    ∃ written, (tokenize c.sql).2 = [] ∧ kindsOf c.sql = written ++ [.endOfInput] ∧
      (∃ after, (Reader.ofText c.sql).readCondition = (.ok c, after) ∧
        after.current.kind = .endOfInput) ∧
      (∀ {σ : Type} [TokenSource σ] (s t : σ) (w : List Token.Kind), .endOfInput ∉ w →
        Reads s w t → (current t).kind = .endOfInput →
        Grammar.condition.run s = (.ok c, t) →
        written.length ≤ w.length ∧ (w.length = written.length → w = written) ∧
          (w.Sublist written → w = written)) ∧
      ∀ text after, (Reader.ofText text).readCondition = (.ok c, after) →
        after.current.kind = .endOfInput →
        (kindsOf c.sql).length ≤ (kindsOf text).length ∧
          ((kindsOf text).length = (kindsOf c.sql).length → kindsOf text = kindsOf c.sql) := by
  obtain ⟨hclean, hkinds⟩ := kindsOf_sql hc
  refine ⟨c.phrase.kinds, hclean, hkinds, ?_, ?_, ?_⟩
  · have hreads := reads_ofText c.sql
    rw [hkinds] at hreads
    obtain ⟨after, hwritten, hend, -⟩ := reads_append.mp hreads
    refine ⟨after, ?_, hend⟩
    rw [Reader.readCondition_eq_ok_iff]
    apply (Grammar.run_condition_eq_ok_iff hwritten c.phrase.kinds_ne_end ?_ c).mpr
    · exact ⟨c.phrase, c.respects_phrase, c.condition_phrase, rfl⟩
    · rw [hend]
      rfl
  · intro σ _ s t w hw hreads hend hrun
    have hstop : Operator.ofKind? (current t).kind = none := by
      rw [hend]
      rfl
    obtain ⟨p, hrespects, hcondition, hp⟩ :=
      (Grammar.run_condition_eq_ok_iff hreads hw hstop c).mp hrun
    have hbriefer := Phrase.briefer hrespects
    rw [hcondition, hp] at hbriefer
    exact ⟨hbriefer.1, hbriefer.2, hbriefer.eq_of_sublist⟩
  · intro text after hread hend
    rw [Reader.readCondition_eq_ok_iff] at hread
    obtain ⟨p, hrespects, hcondition, hp⟩ := exists_phrase_of_text hread hend
    have hbriefer := (Phrase.briefer hrespects).append (Briefer.refl [.endOfInput])
    rw [hcondition, hp, ← hkinds] at hbriefer
    exact hbriefer

/-- Of the three pairs in this text one is needed. -/
theorem a_condition_with_needless_pairs_is_longer :
    (Reader.ofText "((a or 1)) and ('x')").readCondition.1 =
        .ok (.binary .and (.binary .or (.value (.name "a")) (.value (.number 1)))
          (.value (.string "x"))) ∧
      (kindsOf (Condition.sql (.binary .and (.binary .or (.value (.name "a"))
          (.value (.number 1))) (.value (.string "x"))))).length ≤
        (kindsOf "((a or 1)) and ('x')").length := by
  have hread : (Reader.ofText "((a or 1)) and ('x')").readCondition.1 =
      .ok (.binary .and (.binary .or (.value (.name "a")) (.value (.number 1)))
        (.value (.string "x"))) := by decide +kernel
  have hend : (Reader.ofText "((a or 1)) and ('x')").readCondition.2.current.kind =
      .endOfInput := by decide +kernel
  obtain ⟨written, -, -, -, -, htexts⟩ := a_condition_is_written_in_the_fewest_tokens
    (.binary .and (.binary .or (.value (.name "a")) (.value (.number 1)))
      (.value (.string "x"))) (by decide +kernel)
  exact ⟨hread, (htexts _ _ (Prod.ext hread rfl) hend).1⟩

end SelectQuery
