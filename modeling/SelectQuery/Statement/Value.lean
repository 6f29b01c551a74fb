-- The values that a condition compares: numbers, strings and names.
import SelectQuery.Text.Literal
import SelectQuery.Token.Word

namespace SelectQuery

/-- A value in a condition. -/
inductive Value where
  | number (value : Int64)
  | string (value : String)
  /-- The name of a column. -/
  | name (name : String)
  deriving DecidableEq, Repr

namespace Value

/-- The value in a query. -/
def sql : Value → String
  | number n => toString n.toInt
  | string s => Literal.write s
  | name n => n

/-- The token of the value. -/
def kind : Value → Token.Kind
  | number n => .number n
  | string s => .string s
  | name n => .name n

/-- The value that a token is. -/
def ofKind? : Token.Kind → Option Value
  | .number n => some (number n)
  | .string s => some (string s)
  | .name n => some (name n)
  | _ => none

/-- The name that a value is. -/
def name? : Value → Option String
  | name n => some n
  | _ => none

/-- The value can be written in a query: a number is not negative, and a name
is a name. -/
def WellFormed : Value → Prop
  | number n => 0 ≤ n
  | string _ => True
  | name n => isName n = true

instance (value : Value) : Decidable value.WellFormed := by
  cases value <;> unfold WellFormed <;> infer_instance

/-! ## Its small laws -/

theorem ofKind?_eq_some_iff (kind : Token.Kind) (value : Value) :
    ofKind? kind = some value ↔ kind = value.kind := by
  constructor
  · fun_cases ofKind? kind <;> rintro ⟨⟩ <;> rfl
  · rintro rfl
    cases value <;> rfl

end Value

end SelectQuery
