-- Conditions read level by level: a loop for each operator over operands of the
-- next tighter level, down to values and parentheses. The one loop that climbs
-- through all operators reads the same, fails alike and stops at the same place.
import SelectQuery.Proofs.Grammar.Completeness

namespace SelectQuery

variable {σ : Type} [TokenSource σ] {α β : Type}

/-! ## Rules that run alike -/

/-- Rules that run alike go on alike, if they go on alike from what they read. -/
theorem Rule.run_bind_congr {p q : Rule σ α} {f g : α → Rule σ β} {s t : σ}
    (hp : p.run s = q.run t)
    (hf : ∀ a u, p.run s = (.ok a, u) → (f a).run u = (g a).run u) :
    (p >>= f).run s = (q >>= g).run t := by
  rcases hrun : p.run s with ⟨fault | a, u⟩
  · rw [run_bind_error hrun, run_bind_error (hp.symm.trans hrun)]
  · rw [run_bind_ok hrun, run_bind_ok (hp.symm.trans hrun)]
    exact hf a u hrun

theorem Operator.precedence_bounds (op : Operator) : 1 ≤ op.precedence ∧ op.precedence ≤ 3 := by
  cases op <;> decide

namespace Grammar

/-! ## Levels -/

/-- A level of conditions. -/
inductive Level where
  /-- Conditions of the next tighter level, with one operator between them. -/
  | joined (op : Operator)
  /-- A value, or a condition between parentheses. -/
  | single
  deriving DecidableEq, Repr

/-- The level of the operands of an operator: alternatives join conjunctions,
conjunctions join equations, and equations join what stands alone. -/
def Level.under : Operator → Level
  | .or => joined .and
  | .and => joined .equals
  | .equals => single

/-- How tightly an operator must at least bind to stand in the level. -/
def Level.least : Level → Nat
  | joined op => op.precedence
  | single => 4

theorem Level.least_under (op : Operator) : (under op).least = op.precedence + 1 := by
  cases op <;> rfl

theorem Level.least_pos (level : Level) : 1 ≤ level.least := by
  cases level with
  | joined op => exact op.precedence_bounds.1
  | single => exact Nat.le_add_left 1 3

/-! ## Reading level by level -/

mutual

/-- Reads a level: its first part, and then all that its operator joins to it. -/
def levelFrom (level : Level) (s : σ) :
    { o : Except Fault Condition × σ // remaining o.2 ≤ remaining s } :=
  match level with
  | .single => singleFrom s
  | .joined op =>
    match levelFrom (.under op) s with
    | ⟨(.error fault, t), ht⟩ => ⟨(.error fault, t), ht⟩
    | ⟨(.ok left, t), ht⟩ =>
      have hle : remaining t ≤ remaining s := ht
      let ⟨outcome, h⟩ := joinsFrom op left t
      ⟨outcome, Nat.le_trans h hle⟩
termination_by 5 * remaining s + (5 - level.least)
decreasing_by
  · simp [Level.least]
  · have hunder := Level.least_under op
    have hjoined : (Level.joined op).least = op.precedence := rfl
    have hbounds := op.precedence_bounds
    omega
  · have hjoined : (Level.joined op).least = op.precedence := rfl
    have hbounds := op.precedence_bounds
    omega

/-- The loop of a level: as long as its operator comes next, reads another part
and joins it to what stands on the left. -/
def joinsFrom (op : Operator) (left : Condition) (s : σ) :
    { o : Except Fault Condition × σ // remaining o.2 ≤ remaining s } :=
  if hop : (current s).kind = op.kind then
    have hlt : remaining (advance s) < remaining s :=
      remaining_advance_of_operator ((Operator.ofKind?_eq_some_iff _ _).mpr hop)
    match levelFrom (.under op) (advance s) with
    | ⟨(.error fault, t), ht⟩ => ⟨(.error fault, t), Nat.le_trans ht (Nat.le_of_lt hlt)⟩
    | ⟨(.ok right, t), ht⟩ =>
      have hle : remaining t < remaining s := Nat.lt_of_le_of_lt ht hlt
      let ⟨outcome, h⟩ := joinsFrom op (.binary op left right) t
      ⟨outcome, Nat.le_trans h (Nat.le_of_lt hle)⟩
  else ⟨(.ok left, s), Nat.le_refl _⟩
termination_by 5 * remaining s
decreasing_by
  · have := Level.least_pos (.under op)
    omega
  · omega

/-- Reads a value, or all levels between parentheses. -/
def singleFrom (s : σ) :
    { o : Except Fault Condition × σ // remaining o.2 ≤ remaining s } :=
  match Value.ofKind? (current s).kind with
  | some value => ⟨(.ok (.value value), advance s), remaining_advance_le s⟩
  | none =>
    if hopen : (current s).kind = .mark .lparen then
      have hlt : remaining (advance s) < remaining s := remaining_advance_of_lparen hopen
      match levelFrom (.joined .or) (advance s) with
      | ⟨(.error fault, t), ht⟩ => ⟨(.error fault, t), Nat.le_trans ht (Nat.le_of_lt hlt)⟩
      | ⟨(.ok inner, t), ht⟩ =>
        have hle : remaining t ≤ remaining s := Nat.le_trans ht (Nat.le_of_lt hlt)
        if (current t).kind = .mark .rparen then
          ⟨(.ok inner, advance t), Nat.le_trans (remaining_advance_le t) hle⟩
        else ⟨(.error (.unexpected .closingParen (current t)), t), hle⟩
    else ⟨(.error (.unexpected .value (current s)), s), Nat.le_refl _⟩
termination_by 5 * remaining s
decreasing_by
  · have := Level.least_pos (.joined .or)
    omega

end

/-- A level. -/
def level (level : Level) : Rule σ Condition where
  run s := (levelFrom level s).val
  remaining_le s := (levelFrom level s).property

/-- What the operator of a level joins to the condition `left`. -/
def joins (op : Operator) (left : Condition) : Rule σ Condition where
  run s := (joinsFrom op left s).val
  remaining_le s := (joinsFrom op left s).property

/-! ## The levels in terms of each other -/

theorem level_joined (op : Operator) :
    (level (.joined op) : Rule σ Condition) = level (.under op) >>= joins op := by
  refine Rule.ext fun s => ?_
  change (levelFrom (.joined op) s).val = _
  have hunder : (level (.under op) : Rule σ Condition).run s = (levelFrom (.under op) s).val := rfl
  rw [levelFrom]
  dsimp only
  split
  · next fault t ht hval =>
    rw [hval] at hunder
    rw [Rule.run_bind_error hunder]
  · next left t ht hval =>
    rw [hval] at hunder
    rw [Rule.run_bind_ok hunder]
    rfl

theorem joins_eq (op : Operator) (left : Condition) :
    (joins op left : Rule σ Condition) = (do
      if (← Rule.peek) = op.kind then
        Rule.skip
        let right ← level (.under op)
        joins op (.binary op left right)
      else pure left) := by
  refine Rule.ext fun s => ?_
  change (joinsFrom op left s).val = _
  rw [Rule.run_bind_ok (Rule.run_peek s), joinsFrom]
  split
  · rw [Rule.run_bind_ok (Rule.run_skip s)]
    have hright : (level (.under op) : Rule σ Condition).run (advance s)
        = (levelFrom (.under op) (advance s)).val := rfl
    split
    · next fault t ht hval =>
      rw [hval] at hright
      rw [Rule.run_bind_error hright]
    · next right t ht hval =>
      rw [hval] at hright
      rw [Rule.run_bind_ok hright]
      rfl
  · rfl

theorem level_single :
    (level .single : Rule σ Condition) = (do
      let kind ← Rule.peek
      match Value.ofKind? kind with
      | some value =>
        Rule.skip
        pure (.value value)
      | none =>
        if kind = .mark .lparen then
          Rule.skip
          let inner ← level (.joined .or)
          Rule.takeKind .closingParen (.mark .rparen)
          pure inner
        else Rule.reject (.unexpected .value)) := by
  refine Rule.ext fun s => ?_
  change (levelFrom .single s).val = _
  rw [Rule.run_bind_ok (Rule.run_peek s), levelFrom, singleFrom]
  dsimp only
  split
  · rw [Rule.run_bind_ok (Rule.run_skip s), Rule.run_pure]
  · split
    · rw [Rule.run_bind_ok (Rule.run_skip s)]
      have hinner : (level (.joined .or) : Rule σ Condition).run (advance s)
          = (levelFrom (.joined .or) (advance s)).val := rfl
      split
      · next fault t ht hval =>
        rw [hval] at hinner
        rw [Rule.run_bind_error hinner]
      · next inner t ht hval =>
        rw [hval] at hinner
        rw [Rule.run_bind_ok hinner]
        split
        · next hclose =>
          rw [Rule.run_bind_ok (Rule.run_takeKind_ok hclose), Rule.run_pure]
        · next hclose => rw [Rule.run_bind_error (Rule.run_takeKind_error hclose)]
    · rfl

/-! ## Single steps -/

theorem run_joins_next {s : σ} {op : Operator} (left : Condition)
    (hop : (current s).kind = op.kind) :
    (joins op left).run s =
      (level (.under op) >>= fun right => joins op (.binary op left right)).run (advance s) := by
  rw [joins_eq, Rule.run_bind_ok (Rule.run_peek s), if_pos hop,
    Rule.run_bind_ok (Rule.run_skip s)]

theorem run_joins_stop {s : σ} {op : Operator} (left : Condition)
    (hop : (current s).kind ≠ op.kind) : (joins op left).run s = (.ok left, s) := by
  rw [joins_eq, Rule.run_bind_ok (Rule.run_peek s), if_neg hop, Rule.run_pure]

/-- After operators that bind at least as tightly as `least` no such operator
comes next. -/
theorem precedence_lt_of_run_binary {s t : σ} {least : Nat} {c : Condition}
    (h : (binary least).run s = (.ok c, t)) {op : Operator} (hop : (current t).kind = op.kind) :
    op.precedence < least := by
  rcases meetsAt_binary least s with ⟨w, found, u, hrun, -, phrase, -, -, -, -, hstop⟩ |
    ⟨w, fault, u, hrun, -⟩
  · rw [h] at hrun
    cases hrun
    exact hstop op hop
  · rw [h] at hrun
    cases hrun

/-! ## Climbing is reading level by level -/

/-- Two bounds with the same operators below them make no difference. -/
theorem run_climb_congr {least least' : Nat}
    (h : ∀ op : Operator, least ≤ op.precedence ↔ least' ≤ op.precedence) (left : Condition)
    (s : σ) : (climb least left).run s = (climb least' left).run s := by
  induction hn : remaining s using Nat.strongRecOn generalizing left s with
  | _ n ih =>
    by_cases hop : ∃ op : Operator, (current s).kind = op.kind ∧ least ≤ op.precedence
    · obtain ⟨op, hkind, hle⟩ := hop
      have hlt := remaining_advance_of_operator ((Operator.ofKind?_eq_some_iff _ _).mpr hkind)
      rw [run_climb_next left hkind hle, run_climb_next left hkind ((h op).mp hle)]
      apply Rule.run_bind_congr rfl
      intro right t hright
      have hle := Rule.remaining_run_le hright
      exact ih (remaining t) (by omega) _ t rfl
    · have hstop : ∀ op, Operator.ofKind? (current s).kind = some op → op.precedence < least := by
        intro op hkind
        by_contra hnot
        exact hop ⟨op, (Operator.ofKind?_eq_some_iff _ _).mp hkind, by omega⟩
      rw [run_climb_stop hstop, run_climb_stop]
      intro op hkind
      have hlt := hstop op hkind
      have hiff := h op
      omega

/-- The two ways of reading agree on every level from sources with fewer tokens
than `n`. -/
def AgreeBelow (σ : Type) [TokenSource σ] (n : Nat) : Prop :=
  ∀ (t : σ) (l : Level), remaining t < n → (binary l.least).run t = (level l).run t

/-- Where climbing stops before a looser operator or none at all, the loop of the
level stops too. -/
theorem run_climb_joins_stop {s : σ} {op : Operator} (left : Condition)
    (hlooser : ∀ o, Operator.ofKind? (current s).kind = some o → o.precedence < op.precedence) :
    (climb op.precedence left).run s = (climb (op.precedence + 1) left >>= joins op).run s := by
  have hne : (current s).kind ≠ op.kind := by
    intro hkind
    have := hlooser op ((Operator.ofKind?_eq_some_iff _ _).mpr hkind)
    omega
  have htighter : (climb (op.precedence + 1) left).run s = (.ok left, s) := by
    apply run_climb_stop
    intro o ho
    have := hlooser o ho
    omega
  rw [run_climb_stop hlooser, Rule.run_bind_ok htighter, run_joins_stop left hne]

/-- A tighter operator is folded in before the loop of the level goes on. -/
theorem run_climb_joins_next {s : σ} {o op : Operator} (left : Condition)
    (hkind : (current s).kind = o.kind) (htight : op.precedence < o.precedence) :
    (climb (op.precedence + 1) left >>= joins op).run s =
      (binary (o.precedence + 1) >>= fun right =>
        climb (op.precedence + 1) (.binary o left right) >>= joins op).run (advance s) := by
  rw [← bind_assoc]
  exact Rule.run_bind_congr (run_climb_next left hkind htight) fun _ _ _ => rfl

/-- To climb from the operator of a level on is to climb from the next tighter one
on, and then to join what the operator of the level joins. -/
theorem run_climb_of_agree {n : Nat} (hagree : AgreeBelow σ n) (op : Operator)
    (left : Condition) (s : σ) (hs : remaining s ≤ n) :
    (climb op.precedence left).run s =
      (climb (op.precedence + 1) left >>= joins op).run s := by
  induction hm : remaining s using Nat.strongRecOn generalizing left s with
  | _ m ih =>
    cases hop : Operator.ofKind? (current s).kind with
    | none =>
      apply run_climb_joins_stop
      intro o ho
      rw [hop] at ho
      cases ho
    | some o =>
      have hkind := (Operator.ofKind?_eq_some_iff _ _).mp hop
      have honly : ∀ o', Operator.ofKind? (current s).kind = some o' → o' = o := fun o' ho' =>
        Option.some.inj (ho'.symm.trans hop)
      have hlt := remaining_advance_of_operator hop
      rcases Nat.lt_trichotomy o.precedence op.precedence with hloose | hsame | htight
      · apply run_climb_joins_stop
        intro o' ho'
        rwa [honly o' ho']
      · -- The operator of the level: the tighter ones stop before it, and its loop
        -- goes on with it.
        obtain rfl := Operator.precedence_inj hsame
        have htighter : (climb (o.precedence + 1) left).run s = (.ok left, s) := by
          apply run_climb_stop
          intro o' ho'
          rw [honly o' ho']
          omega
        rw [run_climb_next left hkind (Nat.le_refl _), Rule.run_bind_ok htighter,
          run_joins_next left hkind]
        have hunder : (binary (o.precedence + 1)).run (advance s) =
            (level (.under o)).run (advance s) := by
          rw [← Level.least_under]
          exact hagree _ _ (by omega)
        apply Rule.run_bind_congr hunder
        intro right t hright
        have hle := Rule.remaining_run_le hright
        rw [ih (remaining t) (by omega) _ t (by omega) rfl]
        apply Rule.run_bind_ok
        apply run_climb_stop
        intro o' ho'
        exact precedence_lt_of_run_binary hright ((Operator.ofKind?_eq_some_iff _ _).mp ho')
      · rw [run_climb_joins_next left hkind htight,
          run_climb_next left hkind (Nat.le_of_lt htight)]
        apply Rule.run_bind_congr rfl
        intro right t hright
        have hle := Rule.remaining_run_le hright
        exact ih (remaining t) (by omega) _ t (by omega) rfl

/-- Past all operators there is nothing to climb. -/
theorem run_binary_single (s : σ) : (binary Level.single.least).run s = operand.run s := by
  rw [binary_eq]
  rcases hrun : operand.run s with ⟨fault | left, t⟩
  · exact Rule.run_bind_error hrun
  · rw [Rule.run_bind_ok hrun]
    apply run_climb_stop
    intro op _
    exact Nat.lt_succ_of_le op.precedence_bounds.2

/-- No operator binds so loosely that the first two bounds differ. -/
theorem run_binary_zero (s : σ) : (binary 0).run s = (binary 1).run s := by
  rw [binary_eq, binary_eq]
  apply Rule.run_bind_congr rfl
  intro left t _
  apply run_climb_congr
  intro op
  have hbounds := op.precedence_bounds
  omega

theorem run_operand_of_agree {s : σ} (hagree : AgreeBelow σ (remaining s)) :
    operand.run s = (level .single).run s := by
  rw [operand_eq, level_single, Rule.run_bind_ok (Rule.run_peek s),
    Rule.run_bind_ok (Rule.run_peek s)]
  cases Value.ofKind? (current s).kind with
  | some value => rfl
  | none =>
    dsimp only
    split
    · rename_i hopen
      rw [Rule.run_bind_ok (Rule.run_skip s), Rule.run_bind_ok (Rule.run_skip s)]
      have hinner : (condition : Rule σ Condition).run (advance s) =
          (level (.joined .or)).run (advance s) := by
        unfold condition
        rw [run_binary_zero]
        exact hagree _ (.joined .or) (remaining_advance_of_lparen hopen)
      exact Rule.run_bind_congr hinner fun _ _ _ => rfl
    · rfl

/-- One level up: an operator joins what the tighter operators have read. -/
theorem run_joined_of_agree {s : σ} (hagree : AgreeBelow σ (remaining s)) (op : Operator)
    (hunder : (binary (Level.under op).least).run s = (level (.under op)).run s) :
    (binary (Level.joined op).least).run s = (level (.joined op)).run s := by
  rw [Level.least_under] at hunder
  calc (binary op.precedence).run s
      = (operand >>= climb op.precedence).run s := by rw [binary_eq]
    _ = (operand >>= fun left => climb (op.precedence + 1) left >>= joins op).run s := by
        apply Rule.run_bind_congr rfl
        intro left t hleft
        exact run_climb_of_agree hagree op left t (Rule.remaining_run_le hleft)
    _ = (binary (op.precedence + 1) >>= joins op).run s := by
        rw [binary_eq, bind_assoc]
    _ = (level (.under op) >>= joins op).run s :=
        Rule.run_bind_congr hunder fun _ _ _ => rfl
    _ = (level (.joined op)).run s := by rw [level_joined]

/-- Reading the operators that bind tightly enough for a level is reading the
level. -/
theorem run_binary_eq_level (s : σ) (l : Level) :
    (binary l.least).run s = (level l).run s := by
  induction hn : remaining s using Nat.strongRecOn generalizing s l with
  | _ n ih =>
    have hagree : AgreeBelow σ (remaining s) :=
      fun t l ht => ih (remaining t) (by omega) t l rfl
    have hsingle : (binary Level.single.least).run s = (level .single).run s := by
      rw [run_binary_single, run_operand_of_agree hagree]
    have hequations := run_joined_of_agree hagree .equals hsingle
    have hconjunctions := run_joined_of_agree hagree .and hequations
    have halternatives := run_joined_of_agree hagree .or hconjunctions
    cases l with
    | single => exact hsingle
    | joined op =>
      cases op with
      | equals => exact hequations
      | and => exact hconjunctions
      | or => exact halternatives

/-! ## The law -/

/-- From any source, climbing through the operators that bind at least as tightly
as a bound gives what reading the level of that bound gives, a condition or a
fault with what it expects and the token it finds, and leaves the same source. -/
theorem climbing_is_reading_level_by_level (s : σ) :
    (binary 0).run s = (level (.joined .or)).run s ∧
    (binary 1).run s = (level (.joined .or)).run s ∧
    (binary 2).run s = (level (.joined .and)).run s ∧
    (binary 3).run s = (level (.joined .equals)).run s ∧
    (binary 4).run s = (level .single).run s := by
  have hloosest : (binary 1).run s = (level (.joined .or)).run s :=
    run_binary_eq_level s (.joined .or)
  refine ⟨?_, hloosest, ?_, ?_, ?_⟩
  · rw [run_binary_zero, hloosest]
  · exact run_binary_eq_level s (.joined .and)
  · exact run_binary_eq_level s (.joined .equals)
  · exact run_binary_eq_level s .single

end Grammar

end SelectQuery
