-- The laws of parentheses. Any number of pairs may stand around any part of a
-- condition, and at least one must stand around an operand that binds too
-- loosely for its side. The tokens that are read as a condition are those
-- renderings of it and no others, so further pairs never change what is read.
import SelectQuery.Proofs.Grammar.Completeness
import SelectQuery.Reader

namespace SelectQuery

/-! ## Renderings -/

/-- The operator at the root of a condition; a value has none. -/
def Condition.root? : Condition → Option Operator
  | value _ => none
  | binary op _ _ => some op

/-- Tokens with a number of pairs of parentheses around them. -/
def parenthesized (pairs : Nat) (kinds : List Token.Kind) : List Token.Kind :=
  List.replicate pairs (.mark .lparen) ++ kinds ++ List.replicate pairs (.mark .rparen)

/-- The tokens render a condition with just `pairs` pairs of parentheses around
all of it, and with any number around each of its parts. An operand on the left
has a pair at least if its operator binds looser than the one it stands under,
and an operand on the right if its operator binds no tighter. -/
inductive Renders : Nat → Condition → List Token.Kind → Prop
  | value (pairs : Nat) (v : Value) : Renders pairs (.value v) (parenthesized pairs [v.kind])
  | binary (pairs : Nat) {op : Operator} {left right : Condition} {leftPairs rightPairs : Nat}
      {before after : List Token.Kind} :
      Renders leftPairs left before → Renders rightPairs right after →
      (∀ o ∈ left.root?, o.Looser op → 0 < leftPairs) →
      (∀ o ∈ right.root?, ¬ op.Looser o → 0 < rightPairs) →
      Renders pairs (.binary op left right) (parenthesized pairs (before ++ op.kind :: after))

@[simp]
theorem parenthesized_zero (kinds : List Token.Kind) : parenthesized 0 kinds = kinds := by
  simp [parenthesized]

theorem parenthesized_succ (pairs : Nat) (kinds : List Token.Kind) :
    parenthesized (pairs + 1) kinds =
      .mark .lparen :: (parenthesized pairs kinds ++ [.mark .rparen]) := by
  unfold parenthesized
  rw [List.replicate_succ, List.replicate_succ']
  simp

theorem Renders.group {pairs : Nat} {c : Condition} {w : List Token.Kind}
    (h : Renders pairs c w) : Renders (pairs + 1) c (.mark .lparen :: (w ++ [.mark .rparen])) := by
  cases h with
  | value _ v =>
    rw [← parenthesized_succ]
    exact .value _ v
  | binary _ hleft hright hneedsLeft hneedsRight =>
    rw [← parenthesized_succ]
    exact .binary _ hleft hright hneedsLeft hneedsRight

/-! ## Renderings and phrases -/

namespace Phrase

/-- A phrase with a number of groups around it. -/
def grouped : Nat → Phrase → Phrase
  | 0, phrase => phrase
  | pairs + 1, phrase => group (grouped pairs phrase)

theorem kinds_grouped (pairs : Nat) (p : Phrase) :
    (grouped pairs p).kinds = parenthesized pairs p.kinds := by
  induction pairs with
  | zero => simp [grouped]
  | succ pairs ih => rw [grouped, kinds, ih, parenthesized_succ]

theorem condition_grouped (pairs : Nat) (p : Phrase) :
    (grouped pairs p).condition = p.condition := by
  induction pairs with
  | zero => rfl
  | succ pairs ih => exact ih

theorem respects_grouped (pairs : Nat) {p : Phrase} (h : p.Respects) :
    (grouped pairs p).Respects := by
  induction pairs with
  | zero => exact h
  | succ pairs ih => exact ih

/-- Only without a group around it does a phrase have open operators. -/
theorem mem_openOperators_grouped {pairs : Nat} {p : Phrase} {o : Operator}
    (h : o ∈ (grouped pairs p).openOperators) : pairs = 0 ∧ o ∈ p.openOperators := by
  cases pairs with
  | zero => exact ⟨rfl, h⟩
  | succ pairs => cases h

/-- Under an operator whose operands bind as they should, no open operator binds
looser than it. -/
theorem not_looser_of_open {op o : Operator} {left right : Phrase}
    (h : (binary op left right).Respects) (ho : o ∈ (binary op left right).openOperators) :
    ¬ o.Looser op := by
  obtain ⟨-, -, hleft, hright⟩ := h
  simp only [openOperators, List.mem_append, List.mem_cons] at ho
  rcases ho with ho | rfl | ho
  · exact hleft o ho
  · exact Operator.not_looser_self o
  · exact (hright o ho).asymm

/-- A phrase that respects the binding of operators renders its condition. If it
is no group, the operator at the root of the condition is open in it. -/
theorem exists_renders {p : Phrase} (h : p.Respects) :
    ∃ pairs, Renders pairs p.condition p.kinds ∧
      (pairs = 0 → ∀ o ∈ p.condition.root?, o ∈ p.openOperators) := by
  induction p with
  | value v =>
    refine ⟨0, ?_, ?_⟩
    · simpa [condition, kinds] using Renders.value 0 v
    · intro _ o ho
      cases ho
  | group inner ih =>
    obtain ⟨pairs, hinner, -⟩ := ih h
    refine ⟨pairs + 1, hinner.group, ?_⟩
    intro hzero
    omega
  | binary op left right ihl ihr =>
    obtain ⟨hl, hr, hleft, hright⟩ := h
    obtain ⟨leftPairs, hleftRenders, hleftOpen⟩ := ihl hl
    obtain ⟨rightPairs, hrightRenders, hrightOpen⟩ := ihr hr
    refine ⟨0, ?_, ?_⟩
    · rw [condition, kinds, ← parenthesized_zero (left.kinds ++ op.kind :: right.kinds)]
      apply Renders.binary 0 hleftRenders hrightRenders
      · -- Without a pair the operator of the operand would be open.
        intro o ho hlooser
        by_contra hnone
        exact hleft o (hleftOpen (by omega) o ho) hlooser
      · intro o ho hnot
        by_contra hnone
        exact hnot (hright o (hrightOpen (by omega) o ho))
    · intro _ o ho
      simp only [condition, Condition.root?, Option.mem_def, Option.some.injEq] at ho
      simp [openOperators, ho]

end Phrase

/-- A rendering is the list of tokens of a phrase that respects the binding of
operators. An operator is open in the phrase only if no pair stands around it,
and then it binds at least as tightly as the one at the root. -/
theorem Renders.exists_phrase {pairs : Nat} {c : Condition} {w : List Token.Kind}
    (h : Renders pairs c w) :
    ∃ p : Phrase, p.Respects ∧ p.condition = c ∧ p.kinds = w ∧
      ∀ o ∈ p.openOperators, pairs = 0 ∧ ∃ r ∈ c.root?, ¬ o.Looser r := by
  induction h with
  | value pairs v =>
    refine ⟨.grouped pairs (.value v), Phrase.respects_grouped pairs trivial,
      Phrase.condition_grouped pairs _, Phrase.kinds_grouped pairs _, ?_⟩
    intro o ho
    obtain ⟨-, hnone⟩ := Phrase.mem_openOperators_grouped ho
    cases hnone
  | @binary pairs op left right leftPairs rightPairs before after _ _ hneedsLeft hneedsRight ihl
      ihr =>
    obtain ⟨p, hp, hpleft, hpkinds, hpopen⟩ := ihl
    obtain ⟨q, hq, hqright, hqkinds, hqopen⟩ := ihr
    have hrespects : (Phrase.binary op p q).Respects := by
      refine ⟨hp, hq, ?_, ?_⟩
      · intro o ho hlooser
        obtain ⟨hzero, r, hr, hnot⟩ := hpopen o ho
        have hroot := (hlooser.or_of_any r).resolve_right hnot
        exact absurd (hneedsLeft r hr hroot) (by omega)
      · intro o ho
        obtain ⟨hzero, r, hr, hnot⟩ := hqopen o ho
        have hroot : op.Looser r := by
          by_contra hno
          exact absurd (hneedsRight r hr hno) (by omega)
        exact (hroot.or_of_any o).resolve_left hnot
    refine ⟨.grouped pairs (.binary op p q), Phrase.respects_grouped pairs hrespects, ?_, ?_, ?_⟩
    · rw [Phrase.condition_grouped, Phrase.condition, hpleft, hqright]
    · rw [Phrase.kinds_grouped, Phrase.kinds, hpkinds, hqkinds]
    · intro o ho
      obtain ⟨hzero, hopen⟩ := Phrase.mem_openOperators_grouped ho
      exact ⟨hzero, op, rfl, Phrase.not_looser_of_open hrespects hopen⟩

theorem exists_renders_iff (c : Condition) (w : List Token.Kind) :
    (∃ pairs, Renders pairs c w) ↔
      ∃ p : Phrase, p.Respects ∧ p.condition = c ∧ p.kinds = w := by
  constructor
  · intro h
    obtain ⟨pairs, hrenders⟩ := h
    obtain ⟨p, hrespects, hcondition, hkinds, -⟩ := hrenders.exists_phrase
    exact ⟨p, hrespects, hcondition, hkinds⟩
  · intro h
    obtain ⟨p, hrespects, hcondition, hkinds⟩ := h
    obtain ⟨pairs, hrenders, -⟩ := p.exists_renders hrespects
    exact ⟨pairs, by rwa [hcondition, hkinds] at hrenders⟩

/-! ## What is read as a condition -/

namespace Grammar

variable {σ : Type} [TokenSource σ]

/-- What is read as a condition is the list of tokens of one of its phrases. -/
theorem exists_phrase_of_run {s t : σ} {c : Condition} (h : condition.run s = (.ok c, t)) :
    ∃ p : Phrase, p.Respects ∧ p.condition = c ∧ Reads s p.kinds t := by
  rcases meetsAt_binary 0 s with ⟨w, found, u, hrun, hreads, p, hkinds, hcondition, hrespects, -⟩ |
    ⟨w, fault, u, hrun, -⟩
  · have hsame := hrun.symm.trans h
    simp only [Prod.mk.injEq, Except.ok.injEq] at hsame
    obtain ⟨hfound, hstop⟩ := hsame
    subst hfound hstop hkinds
    exact ⟨p, hrespects, hcondition, hreads⟩
  · have hsame := hrun.symm.trans h
    simp at hsame

/-- Tokens before one that is no operator are read as a condition, all of them,
exactly if a phrase of the condition has them. -/
theorem run_condition_eq_ok_iff {s t : σ} {w : List Token.Kind} (hreads : Reads s w t)
    (hend : Token.Kind.endOfInput ∉ w) (hstop : Operator.ofKind? (current t).kind = none)
    (c : Condition) :
    condition.run s = (.ok c, t) ↔
      ∃ p : Phrase, p.Respects ∧ p.condition = c ∧ p.kinds = w := by
  constructor
  · intro hrun
    obtain ⟨p, hrespects, hcondition, hp⟩ := exists_phrase_of_run hrun
    exact ⟨p, hrespects, hcondition, reads_unique hp hreads p.kinds_ne_end hend⟩
  · intro h
    obtain ⟨p, hrespects, hcondition, hkinds⟩ := h
    rw [← hkinds] at hreads
    obtain ⟨q, hq, hqkinds, hrun⟩ := run_condition p hreads hstop
    rw [Phrase.eq_of_kinds_eq hq hrespects hqkinds, hcondition] at hrun
    exact hrun

theorem ofKind?_eq_none {kind : Token.Kind} (h : ∀ op : Operator, kind ≠ op.kind) :
    Operator.ofKind? kind = none := by
  rw [Option.eq_none_iff_forall_ne_some]
  intro op hop
  exact h op ((Operator.ofKind?_eq_some_iff kind op).mp hop)

end Grammar

theorem Reader.readCondition_eq_ok_iff (reader after : Reader) (c : Condition) :
    reader.readCondition = (.ok c, after) ↔ Grammar.condition.run reader = (.ok c, after) := by
  unfold Reader.readCondition Reader.readRule
  rcases Grammar.condition.run reader with ⟨fault | found, stop⟩
  · simp [Except.mapError]
  · simp [Except.mapError]

/-! ## The law -/

/-- Tokens that stand before a token other than an operator are read as a
condition, all of them and no more, exactly if they render it with any number of
parentheses around each of its parts and with those that it needs. So it is for
every source of tokens, and for a reader that is asked for a condition. -/
theorem parentheses_leave_no_trace (c : Condition) (w : List Token.Kind)
    (hend : Token.Kind.endOfInput ∉ w) :
    (∀ {σ : Type} [TokenSource σ] (s t : σ), Reads s w t →
      (∀ op : Operator, (current t).kind ≠ op.kind) →
      (Grammar.condition.run s = (.ok c, t) ↔ ∃ pairs, Renders pairs c w)) ∧
    ∀ reader after : Reader, Reads reader w after →
      (∀ op : Operator, after.current.kind ≠ op.kind) →
      (reader.readCondition = (.ok c, after) ↔ ∃ pairs, Renders pairs c w) := by
  constructor
  · intro σ _ s t hreads hnext
    rw [exists_renders_iff]
    exact Grammar.run_condition_eq_ok_iff hreads hend (Grammar.ofKind?_eq_none hnext) c
  · intro reader after hreads hnext
    rw [Reader.readCondition_eq_ok_iff, exists_renders_iff]
    exact Grammar.run_condition_eq_ok_iff hreads hend (Grammar.ofKind?_eq_none hnext) c

/-- Of the pairs in `((a OR (1)) AND 'x'))` only the one around the alternative
is needed, and the last parenthesis is left alone. -/
theorem nested_parentheses_leave_no_trace :
    Grammar.condition.run (TokenList.ofKinds
        [.mark .lparen, .mark .lparen, .name "a", .keyword .orKw, .mark .lparen, .number 1,
          .mark .rparen, .mark .rparen, .keyword .andKw, .string "x", .mark .rparen,
          .mark .rparen]) =
      (.ok (.binary .and (.binary .or (.value (.name "a")) (.value (.number 1)))
        (.value (.string "x"))), TokenList.ofKinds [.mark .rparen]) := by
  have hsum : Renders 1 (.binary .or (.value (.name "a")) (.value (.number 1)))
      [.mark .lparen, .name "a", .keyword .orKw, .mark .lparen, .number 1, .mark .rparen,
        .mark .rparen] :=
    .binary 1 (.value 0 (.name "a")) (.value 1 (.number 1)) (by decide) (by decide)
  have hall : Renders 1 (.binary .and (.binary .or (.value (.name "a")) (.value (.number 1)))
        (.value (.string "x")))
      [.mark .lparen, .mark .lparen, .name "a", .keyword .orKw, .mark .lparen, .number 1,
        .mark .rparen, .mark .rparen, .keyword .andKw, .string "x", .mark .rparen] :=
    .binary 1 hsum (.value 0 (.string "x")) (by decide) (by decide)
  refine ((parentheses_leave_no_trace _ _ (by decide)).1 _ _ ?_ ?_).mpr ⟨1, hall⟩
  · simp [Reads, TokenList.ofKinds]
  · intro op
    cases op <;> simp [TokenList.kind_ofKinds, Operator.kind]

end SelectQuery
