-- The written form of conditions, parentheses and all. The tokens of a form
-- leave open how it is built; only one form with given tokens respects the
-- order in which operators bind.
import SelectQuery.Statement.Condition
import Mathlib.Data.List.Basic

namespace SelectQuery

theorem Operator.kind_inj {o p : Operator} (h : o.kind = p.kind) : o = p := by
  have hp := (ofKind?_eq_some_iff o.kind p).mpr h
  rw [(ofKind?_eq_some_iff o.kind o).mpr rfl] at hp
  exact Option.some.inj hp

theorem Value.kind_inj {v w : Value} (h : v.kind = w.kind) : v = w := by
  have hw := (ofKind?_eq_some_iff v.kind w).mpr h
  rw [(ofKind?_eq_some_iff v.kind v).mpr rfl] at hw
  exact Option.some.inj hw

/-! ## Binding -/

/-- One operator binds looser than another: OR looser than AND, and both of them
looser than `=`. -/
inductive Operator.Looser : Operator → Operator → Prop
  | or_and : Looser or and
  | or_equals : Looser or equals
  | and_equals : Looser and equals

/-- The precedence of operators is the order in which they bind. -/
theorem Operator.looser_iff {o p : Operator} :
    o.Looser p ↔ o.precedence < p.precedence := by
  constructor
  · rintro (_ | _ | _) <;> decide
  · intro h
    cases o <;> cases p <;> simp only [precedence, Nat.reduceLT] at h
    exacts [.and_equals, .or_equals, .or_and]

instance (o p : Operator) : Decidable (o.Looser p) :=
  decidable_of_iff _ Operator.looser_iff.symm

theorem Operator.not_looser_self (o : Operator) : ¬ o.Looser o := by
  simp [looser_iff]

theorem Operator.Looser.asymm {o p : Operator} (h : o.Looser p) : ¬ p.Looser o := by
  rw [looser_iff] at h ⊢
  omega

/-- Where one operator binds looser than another, any third one binds looser than the
other or tighter than the one. -/
theorem Operator.Looser.or_of_any {o p : Operator} (h : o.Looser p) (r : Operator) :
    r.Looser p ∨ o.Looser r := by
  simp only [looser_iff] at h ⊢
  omega

/-! ## Written forms -/

/-- A written condition: a value, a condition between parentheses, or two
conditions with an operator between them. -/
inductive Phrase where
  | value (value : Value)
  | group (inner : Phrase)
  | binary (op : Operator) (left right : Phrase)

namespace Phrase

/-- The tokens of the form, from left to right. -/
def kinds : Phrase → List Token.Kind
  | value v => [v.kind]
  | group inner => .mark .lparen :: (inner.kinds ++ [.mark .rparen])
  | binary op left right => left.kinds ++ op.kind :: right.kinds

/-- The condition that is written; parentheses leave no trace. -/
def condition : Phrase → Condition
  | value v => .value v
  | group inner => inner.condition
  | binary op left right => .binary op left.condition right.condition

/-- The operators outside all parentheses. -/
def openOperators : Phrase → List Operator
  | value _ => []
  | group _ => []
  | binary op left right => left.openOperators ++ op :: right.openOperators

/-- At every operator, none of those open on its left binds looser than it does,
and it binds looser than all those open on its right. -/
def Respects : Phrase → Prop
  | value _ => True
  | group inner => inner.Respects
  | binary op left right =>
    left.Respects ∧ right.Respects ∧
      (∀ o ∈ left.openOperators, ¬ o.Looser op) ∧ ∀ o ∈ right.openOperators, op.Looser o

/-- The binding of operators in terms of their precedence. -/
theorem respects_binary_iff {op : Operator} {left right : Phrase} :
    (binary op left right).Respects ↔ left.Respects ∧ right.Respects ∧
      (∀ o ∈ left.openOperators, op.precedence ≤ o.precedence) ∧
      ∀ o ∈ right.openOperators, op.precedence < o.precedence := by
  simp only [Respects, Operator.looser_iff, Nat.not_lt]

/-! ## Going over the tokens -/

/-- One token on: the number of open parentheses, and whether an operand comes
next. Nothing if no written condition goes on like this. -/
def step : Nat × Bool → Token.Kind → Option (Nat × Bool)
  | (depth, true), kind =>
    if (Value.ofKind? kind).isSome then some (depth, false)
    else if kind = .mark .lparen then some (depth + 1, true)
    else none
  | (depth, false), kind =>
    if (Operator.ofKind? kind).isSome then some (depth, true)
    else if kind = .mark .rparen ∧ 0 < depth then some (depth - 1, false)
    else none

/-- All tokens on. -/
def walk (place : Nat × Bool) : List Token.Kind → Option (Nat × Bool)
  | [] => some place
  | kind :: kinds => (step place kind).bind fun next => walk next kinds

theorem walk_append (place : Nat × Bool) (v w : List Token.Kind) :
    walk place (v ++ w) = (walk place v).bind fun next => walk next w := by
  induction v generalizing place with
  | nil => rfl
  | cons kind v ih =>
    simp only [List.cons_append, walk, ih]
    cases step place kind <;> rfl

theorem step_value (depth : Nat) (v : Value) : step (depth, true) v.kind = some (depth, false) := by
  simp [step, (Value.ofKind?_eq_some_iff _ _).mpr rfl]

theorem step_operator (depth : Nat) (op : Operator) :
    step (depth, false) op.kind = some (depth, true) := by
  simp [step, (Operator.ofKind?_eq_some_iff _ _).mpr rfl]

/-- A whole form stands where an operand can, and an operator can follow it. -/
theorem walk_kinds (p : Phrase) (depth : Nat) :
    walk (depth, true) p.kinds = some (depth, false) := by
  induction p generalizing depth with
  | value v => simp [kinds, walk, step_value]
  | group inner ih =>
    have hopen : step (depth, true) (.mark .lparen) = some (depth + 1, true) := rfl
    have hclose : step (depth + 1, false) (.mark .rparen) = some (depth, false) := rfl
    simp [kinds, walk, walk_append, hopen, ih, hclose]
  | binary op left right ihl ihr => simp [kinds, walk_append, walk, ihl, step_operator, ihr]

theorem walk_of_append {place stop : Nat × Bool} {v w : List Token.Kind}
    (h : walk place (v ++ w) = some stop) :
    ∃ next, walk place v = some next ∧ walk next w = some stop := by
  rw [walk_append] at h
  exact Option.bind_eq_some_iff.mp h

/-- One more open parenthesis all the way makes no difference. -/
theorem step_deeper {depth depth' : Nat} {b b' : Bool} {kind : Token.Kind}
    (h : step (depth, b) kind = some (depth', b')) :
    step (depth + 1, b) kind = some (depth' + 1, b') := by
  cases b with
  | true =>
    simp only [step] at h ⊢
    split_ifs at h ⊢ <;> simp_all
  | false =>
    simp only [step] at h ⊢
    by_cases hop : (Operator.ofKind? kind).isSome
    · simp_all
    · simp only [hop, if_false, Bool.false_eq_true] at h ⊢
      split at h
      · rename_i hclose
        rw [if_pos ⟨hclose.1, by omega⟩]
        simp only [Option.some.injEq, Prod.mk.injEq] at h ⊢
        exact ⟨by omega, h.2⟩
      · cases h

theorem walk_deeper {w : List Token.Kind} {depth depth' : Nat} {b b' : Bool}
    (h : walk (depth, b) w = some (depth', b')) :
    walk (depth + 1, b) w = some (depth' + 1, b') := by
  induction w generalizing depth b with
  | nil =>
    simp only [walk, Option.some.injEq, Prod.mk.injEq] at h ⊢
    exact ⟨by omega, h.2⟩
  | cons kind w ih =>
    obtain ⟨⟨d, c⟩, hstep, hwalk⟩ := Option.bind_eq_some_iff.mp h
    simp only [walk, step_deeper hstep, Option.bind_some]
    exact ih hwalk

/-! ## One form only -/

/-- An operator that comes when no parenthesis is open is an open operator. -/
theorem mem_openOperators {p : Phrase} {op : Operator} {v w : List Token.Kind}
    (h : p.kinds = v ++ op.kind :: w) (hwalk : walk (0, true) v = some (0, false)) :
    op ∈ p.openOperators := by
  induction p generalizing v w with
  | value value =>
    -- There is one token only, and no operator before an operand.
    rcases v with _ | ⟨k, v⟩
    · cases hwalk
    · simp [kinds] at h
  | group inner ih =>
    exfalso
    rcases v with _ | ⟨k, v⟩
    · cases hwalk
    · simp only [kinds, List.cons_append, List.cons.injEq] at h
      obtain ⟨rfl, h⟩ := h
      have hopen : step (0, true) (.mark .lparen) = some (1, true) := rfl
      simp only [walk, hopen, Option.bind_some] at hwalk
      rcases List.append_eq_append_iff.mp h with ⟨m, rfl, hm⟩ | ⟨m, hinner, hm⟩
      · -- The operator would be the closing parenthesis.
        rcases m with _ | ⟨x, m⟩
        · simp only [List.nil_append, List.cons.injEq] at hm
          cases op <;> cases hm.1
        · simp at hm
      · -- Inside the group a parenthesis is still open.
        obtain ⟨⟨d, c⟩, hd, -⟩ := walk_of_append (hinner ▸ walk_kinds inner 0)
        rw [walk_deeper hd] at hwalk
        simp at hwalk
  | binary o left right ihl ihr =>
    simp only [openOperators, List.mem_append, List.mem_cons]
    rcases List.append_eq_append_iff.mp h with ⟨m, rfl, hm⟩ | ⟨m, hleft, hm⟩
    · rcases m with _ | ⟨x, m⟩
      · simp only [List.nil_append, List.cons.injEq] at hm
        right; left
        exact (Operator.kind_inj hm.1).symm
      · simp only [List.cons_append, List.cons.injEq] at hm
        obtain ⟨rfl, hright⟩ := hm
        right; right
        refine ihr hright ?_
        simpa [walk_append, walk_kinds, walk, step_operator] using hwalk
    · rcases m with _ | ⟨x, m⟩
      · simp only [List.nil_append, List.cons.injEq] at hm
        right; left
        exact Operator.kind_inj hm.1
      · simp only [List.cons_append, List.cons.injEq] at hm
        obtain ⟨rfl, -⟩ := hm
        left
        exact ihl hleft hwalk

theorem mem_openOperators_of_binary {p left right : Phrase} {op : Operator}
    (h : p.kinds = (binary op left right).kinds) : op ∈ p.openOperators :=
  mem_openOperators h (walk_kinds left 0)

/-- The left operand of one form does not reach past that of another with the
same tokens: the two operators would each have to bind tighter. -/
theorem not_longer_left {op op' : Operator} {left right left' right' : Phrase}
    {m : List Token.Kind} (h : (binary op left right).Respects)
    (h' : (binary op' left' right').Respects) (hleft : left'.kinds = left.kinds ++ op.kind :: m)
    (hright : right.kinds = m ++ op'.kind :: right'.kinds) : False := by
  have hwalk : walk (0, true) m = some (0, false) := by
    have := walk_kinds left' 0
    simpa [hleft, walk_append, walk_kinds, walk, step_operator] using this
  have hnot : ¬ op.Looser op' := h'.2.2.1 op (mem_openOperators hleft (walk_kinds left 0))
  have hlooser : op.Looser op' := h.2.2.2 op' (mem_openOperators hright hwalk)
  exact hnot hlooser

/-- Two forms that respect the binding of operators and have the same tokens
are the same. -/
theorem eq_of_kinds_eq {p q : Phrase} (hp : p.Respects) (hq : q.Respects)
    (h : p.kinds = q.kinds) : p = q := by
  induction p generalizing q with
  | value v =>
    cases q with
    | value v' =>
      simp only [kinds, List.cons.injEq, and_true] at h
      rw [Value.kind_inj h]
    | group inner => simp [kinds] at h
    | binary op left right => exact absurd (mem_openOperators_of_binary h) (by simp [openOperators])
  | group inner ih =>
    cases q with
    | value v => simp [kinds] at h
    | group inner' =>
      simp only [kinds, List.cons.injEq, true_and, List.append_left_inj] at h
      have hq' : inner'.Respects := hq
      rw [ih hp hq' h]
    | binary op left right => exact absurd (mem_openOperators_of_binary h) (by simp [openOperators])
  | binary op left right ihl ihr =>
    cases q with
    | value v => exact absurd (mem_openOperators_of_binary h.symm) (by simp [openOperators])
    | group inner => exact absurd (mem_openOperators_of_binary h.symm) (by simp [openOperators])
    | binary op' left' right' =>
      rcases List.append_eq_append_iff.mp h with ⟨m, hm, hr⟩ | ⟨m, hm, hr⟩
      · rcases m with _ | ⟨x, m⟩
        · simp only [List.append_nil, List.nil_append, List.cons.injEq] at hm hr
          rw [Operator.kind_inj hr.1, ihl hp.1 hq.1 hm.symm, ihr hp.2.1 hq.2.1 hr.2]
        · simp only [List.cons_append, List.cons.injEq] at hr
          obtain ⟨rfl, hr⟩ := hr
          exact (not_longer_left hp hq hm hr).elim
      · rcases m with _ | ⟨x, m⟩
        · simp only [List.append_nil, List.nil_append, List.cons.injEq] at hm hr
          rw [Operator.kind_inj hr.1, ihl hp.1 hq.1 hm, ihr hp.2.1 hq.2.1 hr.2.symm]
        · simp only [List.cons_append, List.cons.injEq] at hr
          obtain ⟨rfl, hr⟩ := hr
          exact (not_longer_left hq hp hm hr).elim

/-! ## Where a form ends -/

/-- A kind of token that goes on no condition. -/
def Stops (kind : Token.Kind) : Prop :=
  Operator.ofKind? kind = none

theorem no_longer {p q : Phrase} {m a b : List Token.Kind} (hq : q.kinds = p.kinds ++ m)
    (ha : a = m ++ b) (hstop : ∀ k ∈ a.head?, Stops k) : m = [] := by
  rcases m with _ | ⟨k, m⟩
  · rfl
  · exfalso
    have hnone : Operator.ofKind? k = none := hstop k (by simp [ha])
    have hwalk := walk_kinds q 0
    rw [hq, walk_append, walk_kinds] at hwalk
    simp [walk, step, hnone] at hwalk

/-- Two forms at the start of the same tokens, with nothing after them that
goes on a condition, have the same tokens. -/
theorem kinds_eq_of_append {p q : Phrase} {a b : List Token.Kind}
    (h : p.kinds ++ a = q.kinds ++ b) (ha : ∀ k ∈ a.head?, Stops k)
    (hb : ∀ k ∈ b.head?, Stops k) : p.kinds = q.kinds ∧ a = b := by
  rcases List.append_eq_append_iff.mp h with ⟨m, hq, hm⟩ | ⟨m, hp, hm⟩
  · obtain rfl := no_longer hq hm ha
    exact ⟨by simpa using hq.symm, by simpa using hm⟩
  · obtain rfl := no_longer hp hm hb
    exact ⟨by simpa using hp, by simpa using hm.symm⟩

theorem kinds_ne_end (p : Phrase) : Token.Kind.endOfInput ∉ p.kinds := by
  induction p with
  | value v => cases v <;> simp [kinds, Value.kind]
  | group inner ih => simp [kinds, ih]
  | binary op left right ihl ihr => cases op <;> simp [kinds, Operator.kind, ihl, ihr]

end Phrase

end SelectQuery
