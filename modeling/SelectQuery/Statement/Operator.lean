-- The operators of conditions and how tightly they bind.
import SelectQuery.Token.Basic

namespace SelectQuery

/-- An operator between two conditions. -/
inductive Operator where
  | equals
  | and
  | or
  deriving DecidableEq, Repr

namespace Operator

/-- How tightly the operator binds; more is tighter. -/
def precedence : Operator → Nat
  | or => 1
  | and => 2
  | equals => 3

/-- The operator in a tree. -/
def symbol : Operator → String
  | equals => "="
  | and => "and"
  | or => "or"

/-- The operator in a query. -/
def spelling : Operator → String
  | equals => "="
  | and => "AND"
  | or => "OR"

/-- The token of the operator. -/
def kind : Operator → Token.Kind
  | equals => .mark .equals
  | and => .keyword .andKw
  | or => .keyword .orKw

/-- The operator that a token is. -/
def ofKind? : Token.Kind → Option Operator
  | .mark .equals => some equals
  | .keyword .andKw => some and
  | .keyword .orKw => some or
  | _ => none

/-! ## Its small laws -/

theorem ofKind?_eq_some_iff (kind : Token.Kind) (op : Operator) :
    ofKind? kind = some op ↔ kind = op.kind := by
  constructor
  · fun_cases ofKind? kind <;> rintro ⟨⟩ <;> rfl
  · rintro rfl
    cases op <;> rfl

/-- An operator is not the end of the query. -/
theorem isEnd_kind (op : Operator) : op.kind.isEnd = false := by
  cases op <;> rfl

/-- No two operators bind equally tightly. -/
theorem precedence_inj {o p : Operator} (h : o.precedence = p.precedence) : o = p := by
  cases o <;> cases p <;> simp_all [precedence]

end Operator

end SelectQuery
