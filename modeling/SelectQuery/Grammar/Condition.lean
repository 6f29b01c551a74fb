-- The rules of conditions. An operator takes as its right operand only what
-- binds tighter than itself, so equal operators group to the left. Main
-- statements: each rule in terms of the others.
import SelectQuery.Grammar.Rule
import SelectQuery.Statement.Condition

namespace SelectQuery

namespace Grammar

variable {σ : Type} [TokenSource σ]

/-! ## The rules on a source -/

mutual

/-- Reads an operand, and then the operators that bind at least as tightly as
`least`. -/
def binaryFrom (least : Nat) (s : σ) :
    { o : Except Fault Condition × σ // remaining o.2 ≤ remaining s } :=
  match operandFrom s with
  | ⟨(.error fault, t), ht⟩ => ⟨(.error fault, t), ht⟩
  | ⟨(.ok left, t), ht⟩ =>
    have hle : remaining t ≤ remaining s := ht
    let ⟨outcome, h⟩ := climbFrom least left t
    ⟨outcome, Nat.le_trans h hle⟩
termination_by 2 * remaining s + 1

/-- Goes on after the operand `left` with the operators that bind at least as
tightly as `least`, from left to right. -/
def climbFrom (least : Nat) (left : Condition) (s : σ) :
    { o : Except Fault Condition × σ // remaining o.2 ≤ remaining s } :=
  match hop : Operator.ofKind? (current s).kind with
  | none => ⟨(.ok left, s), Nat.le_refl _⟩
  | some op =>
    if op.precedence < least then ⟨(.ok left, s), Nat.le_refl _⟩
    else
      have hlt : remaining (advance s) < remaining s := by
        refine remaining_advance_lt s ?_
        rw [Token.isEnd, (Operator.ofKind?_eq_some_iff _ _).mp hop]
        exact op.isEnd_kind
      match binaryFrom (op.precedence + 1) (advance s) with
      | ⟨(.error fault, t), ht⟩ =>
        ⟨(.error fault, t), Nat.le_trans ht (Nat.le_of_lt hlt)⟩
      | ⟨(.ok right, t), ht⟩ =>
        have hle : remaining t < remaining s := Nat.lt_of_le_of_lt ht hlt
        let ⟨outcome, h⟩ := climbFrom least (.binary op left right) t
        ⟨outcome, Nat.le_trans h (Nat.le_of_lt hle)⟩
termination_by 2 * remaining s

/-- Reads a value, or a condition between parentheses. -/
def operandFrom (s : σ) :
    { o : Except Fault Condition × σ // remaining o.2 ≤ remaining s } :=
  match Value.ofKind? (current s).kind with
  | some value => ⟨(.ok (.value value), advance s), remaining_advance_le s⟩
  | none =>
    if hopen : (current s).kind = .mark .lparen then
      have hlt : remaining (advance s) < remaining s := by
        refine remaining_advance_lt s ?_
        rw [Token.isEnd, hopen]
        rfl
      match binaryFrom 0 (advance s) with
      | ⟨(.error fault, t), ht⟩ =>
        ⟨(.error fault, t), Nat.le_trans ht (Nat.le_of_lt hlt)⟩
      | ⟨(.ok inner, t), ht⟩ =>
        have hle : remaining t ≤ remaining s := Nat.le_trans ht (Nat.le_of_lt hlt)
        if (current t).kind = .mark .rparen then
          ⟨(.ok inner, advance t), Nat.le_trans (remaining_advance_le t) hle⟩
        else ⟨(.error (.unexpected .closingParen (current t)), t), hle⟩
    else ⟨(.error (.unexpected .value (current s)), s), Nat.le_refl _⟩
termination_by 2 * remaining s

end

/-! ## The rules -/

/-- An operand, and then the operators that bind at least as tightly as
`least`. -/
def binary (least : Nat) : Rule σ Condition where
  run s := (binaryFrom least s).val
  remaining_le s := (binaryFrom least s).property

/-- What follows the operand `left`: operators that bind at least as tightly as
`least`, each with its right operand. -/
def climb (least : Nat) (left : Condition) : Rule σ Condition where
  run s := (climbFrom least left s).val
  remaining_le s := (climbFrom least left s).property

/-- A value, or a condition between parentheses. -/
def operand : Rule σ Condition where
  run s := (operandFrom s).val
  remaining_le s := (operandFrom s).property

/-- A whole condition. -/
def condition : Rule σ Condition :=
  binary 0

/-! ## The rules in terms of each other -/

theorem binary_eq (least : Nat) :
    (binary least : Rule σ Condition) = operand >>= climb least := by
  refine Rule.ext fun s => ?_
  change (binaryFrom least s).val = _
  have hoperand : (operand : Rule σ Condition).run s = (operandFrom s).val := rfl
  rw [binaryFrom]
  split
  · next fault t ht hval =>
    rw [hval] at hoperand
    rw [Rule.run_bind_error hoperand]
  · next left t ht hval =>
    rw [hval] at hoperand
    rw [Rule.run_bind_ok hoperand]
    rfl

theorem climb_eq (least : Nat) (left : Condition) :
    (climb least left : Rule σ Condition) = (do
      match Operator.ofKind? (← Rule.peek) with
      | none => pure left
      | some op =>
        if op.precedence < least then pure left
        else
          Rule.skip
          let right ← binary (op.precedence + 1)
          climb least (.binary op left right)) := by
  refine Rule.ext fun s => ?_
  change (climbFrom least left s).val = _
  rw [Rule.run_bind_ok (Rule.run_peek s), climbFrom]
  split
  · next h => rw [h, Rule.run_pure]
  · next op h =>
    simp only [h]
    split
    · rw [Rule.run_pure]
    · rw [Rule.run_bind_ok (Rule.run_skip s)]
      have hright : (binary (op.precedence + 1) : Rule σ Condition).run (advance s)
          = (binaryFrom (op.precedence + 1) (advance s)).val := rfl
      split
      · next fault t ht hval =>
        rw [hval] at hright
        rw [Rule.run_bind_error hright]
      · next right t ht hval =>
        rw [hval] at hright
        rw [Rule.run_bind_ok hright]
        rfl

theorem operand_eq :
    (operand : Rule σ Condition) = (do
      let kind ← Rule.peek
      match Value.ofKind? kind with
      | some value =>
        Rule.skip
        pure (.value value)
      | none =>
        if kind = .mark .lparen then
          Rule.skip
          let inner ← condition
          Rule.takeKind .closingParen (.mark .rparen)
          pure inner
        else Rule.reject (.unexpected .value)) := by
  refine Rule.ext fun s => ?_
  change (operandFrom s).val = _
  rw [Rule.run_bind_ok (Rule.run_peek s), operandFrom]
  split
  · next value h =>
    dsimp only
    rw [Rule.run_bind_ok (Rule.run_skip s), Rule.run_pure]
  · next h =>
    dsimp only
    split
    · rw [Rule.run_bind_ok (Rule.run_skip s)]
      have hinner : (condition : Rule σ Condition).run (advance s)
          = (binaryFrom 0 (advance s)).val := rfl
      split
      · next fault t ht hval =>
        rw [hval] at hinner
        rw [Rule.run_bind_error hinner]
      · next inner t ht hval =>
        rw [hval] at hinner
        rw [Rule.run_bind_ok hinner]
        split
        · next hclose =>
          rw [Rule.run_bind_ok (Rule.run_takeKind_ok hclose), Rule.run_pure]
        · next hclose => rw [Rule.run_bind_error (Rule.run_takeKind_error hclose)]
    · rfl

end Grammar

end SelectQuery
