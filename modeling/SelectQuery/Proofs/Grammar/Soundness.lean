-- What the rules read. Where a rule succeeds, the tokens it has passed are those
-- of the written form it stands for. Where it fails, the tokens it has passed
-- still go on to such a form, by any token that the fault asks for.
import SelectQuery.Proofs.Grammar.Agreement
import SelectQuery.Proofs.Grammar.Sentence

namespace SelectQuery

variable {σ : Type} [TokenSource σ] {α β : Type}

/-! ## What a rule can do -/

/-- The kinds of tokens that a fault asks for. -/
def Fault.accepts : Fault → Token.Kind → Bool
  | unexpected expected _ => expected.accepts
  | noColumns _ => Expectation.column.accepts

/-- A fault is right at a token: it points there, it does not ask for what it
finds, and with all it asks for the tokens could go on. -/
structure Fault.Right (fault : Fault) (found : Token) (goesOn : List Token.Kind → Prop) :
    Prop where
  found_eq : fault.found = found
  refused : fault.accepts found.kind = false
  viable : ∀ kind, fault.accepts kind = true → ∃ more, goesOn (kind :: more)

/-- What a rule reads, with the tokens it passes and the kind of the next one. -/
abbrev Shape (α : Type) := List Token.Kind → α → Token.Kind → Prop

namespace Rule

/-- From `s` the rule reads something of the given shape, or its fault is
right. -/
def MeetsAt (p : Rule σ α) (shape : Shape α) (s : σ) : Prop :=
  (∃ w a t, p.run s = (.ok a, t) ∧ Reads s w t ∧ shape w a (current t).kind) ∨
  ∃ w fault t, p.run s = (.error fault, t) ∧ Reads s w t ∧
    fault.Right (current t) fun more => ∃ a next, shape (w ++ more) a next

theorem MeetsAt.mono {p : Rule σ α} {shape shape' : Shape α} {s : σ} (h : p.MeetsAt shape s)
    (himp : ∀ w a next, shape w a next → shape' w a next) : p.MeetsAt shape' s := by
  rcases h with ⟨w, a, t, hrun, hreads, hshape⟩ | ⟨w, fault, t, hrun, hreads, hright⟩
  · exact Or.inl ⟨w, a, t, hrun, hreads, himp _ _ _ hshape⟩
  · refine Or.inr ⟨w, fault, t, hrun, hreads, hright.found_eq, hright.refused, ?_⟩
    intro kind hkind
    obtain ⟨more, a, next, hshape⟩ := hright.viable kind hkind
    exact ⟨more, a, next, himp _ _ _ hshape⟩

theorem meetsAt_pure {a : α} {shape : Shape α} {s : σ} (h : shape [] a (current s).kind) :
    (pure a : Rule σ α).MeetsAt shape s :=
  Or.inl ⟨[], a, s, rfl, rfl, h⟩

theorem meetsAt_reject {fault : Token → Fault} {shape : Shape α} {s : σ}
    (h : (fault (current s)).Right (current s) fun more => ∃ a next, shape more a next) :
    (reject fault : Rule σ α).MeetsAt shape s :=
  Or.inr ⟨[], fault (current s), s, rfl, rfl, by simpa using h⟩

theorem meetsAt_take {expected : Expectation} {read? : Token.Kind → Option α}
    (h : ∀ kind, expected.accepts kind = (read? kind).isSome) (s : σ) :
    (take expected read? : Rule σ α).MeetsAt (fun w a _ => ∃ kind, w = [kind] ∧ read? kind = some a)
      s := by
  cases hread : read? (current s).kind with
  | some a => exact Or.inl ⟨[_], a, _, run_take_ok hread, ⟨rfl, rfl⟩, _, rfl, hread⟩
  | none =>
    refine Or.inr ⟨[], _, _, run_take_error hread, rfl, rfl, ?_, ?_⟩
    · simp [Fault.accepts, h, hread]
    · intro kind hkind
      simp only [Fault.accepts, h] at hkind
      obtain ⟨a, ha⟩ := Option.isSome_iff_exists.mp hkind
      exact ⟨[], a, .endOfInput, kind, rfl, ha⟩

theorem meetsAt_takeKind {expected : Expectation} {kind : Token.Kind}
    (h : ∀ k, expected.accepts k = decide (k = kind)) (s : σ) :
    (takeKind expected kind : Rule σ Unit).MeetsAt (fun w _ _ => w = [kind]) s := by
  unfold takeKind
  refine (meetsAt_take ?_ s).mono ?_
  · intro k
    rw [h]
    by_cases hk : k = kind <;> simp [hk]
  · rintro w _ next ⟨k, rfl, hk⟩
    by_cases heq : k = kind
    · rw [heq]
    · simp [heq] at hk

theorem run_takeName_ok {s : σ} {expected : Expectation} {n : String}
    (h : (current s).kind = .name n) : (takeName expected).run s = (.ok n, advance s) :=
  run_take_ok (by rw [h])

theorem run_takeName_error {s : σ} {expected : Expectation}
    (h : ¬ ∃ n, (current s).kind = .name n) :
    (takeName expected).run s = (.error (.unexpected expected (current s)), s) := by
  apply run_take_error
  cases hkind : (current s).kind with
  | name n => exact absurd ⟨n, hkind⟩ h
  | _ => rfl

theorem meetsAt_takeName {expected : Expectation}
    (h : ∀ k, expected.accepts k = true ↔ ∃ n, k = .name n) (s : σ) :
    (takeName expected : Rule σ String).MeetsAt (fun w n _ => w = [.name n]) s := by
  unfold takeName
  refine (meetsAt_take ?_ s).mono ?_
  · intro k
    rw [Bool.eq_iff_iff, h]
    cases k <;> simp
  · rintro w n next ⟨k, rfl, hk⟩
    cases k <;> simp_all

theorem MeetsAt.peek_bind {f : Token.Kind → Rule σ β} {shape : Shape β} {s : σ}
    (h : (f (current s).kind).MeetsAt shape s) : (peek >>= f).MeetsAt shape s := by
  unfold MeetsAt
  rw [run_bind_ok (run_peek s)]
  exact h

theorem MeetsAt.skip_bind {f : Unit → Rule σ β} {shape : Shape β} {s : σ}
    (h : (f ()).MeetsAt (fun w => shape ((current s).kind :: w)) (advance s)) :
    (skip >>= f).MeetsAt shape s := by
  unfold MeetsAt
  rw [run_bind_ok (run_skip s)]
  rcases h with ⟨w, a, t, hrun, hreads, hshape⟩ | ⟨w, fault, t, hrun, hreads, hright⟩
  · exact Or.inl ⟨_ :: w, a, t, hrun, ⟨rfl, hreads⟩, hshape⟩
  · exact Or.inr ⟨_ :: w, fault, t, hrun, ⟨rfl, hreads⟩, hright⟩

/-- A rule and then another: the second goes on from what the first has read,
and what the first reads can be gone on from. -/
theorem MeetsAt.bind {p : Rule σ α} {f : α → Rule σ β} {first : Shape α} {shape : Shape β} {s : σ}
    (hp : p.MeetsAt first s)
    (hf : ∀ w a t, p.run s = (.ok a, t) → first w a (current t).kind →
      (f a).MeetsAt (fun v => shape (w ++ v)) t)
    (hmore : ∀ w a next, first w a next → ∃ v b last, shape (w ++ v) b last) :
    (p >>= f).MeetsAt shape s := by
  rcases hp with ⟨w, a, t, hrun, hreads, hfirst⟩ | ⟨w, fault, t, hrun, hreads, hright⟩
  · unfold MeetsAt
    rw [run_bind_ok hrun]
    rcases hf w a t hrun hfirst with ⟨v, b, u, hrun', hreads', hshape⟩ |
      ⟨v, fault, u, hrun', hreads', hright⟩
    · exact Or.inl ⟨w ++ v, b, u, hrun', reads_append.mpr ⟨t, hreads, hreads'⟩, hshape⟩
    · refine Or.inr ⟨w ++ v, fault, u, hrun', reads_append.mpr ⟨t, hreads, hreads'⟩,
        hright.found_eq, hright.refused, ?_⟩
      simpa only [List.append_assoc] using hright.viable
  · refine Or.inr ⟨w, fault, t, run_bind_error hrun, hreads, hright.found_eq, hright.refused, ?_⟩
    intro kind hkind
    obtain ⟨more, a, next, hfirst⟩ := hright.viable kind hkind
    obtain ⟨v, b, last, hshape⟩ := hmore _ _ _ hfirst
    exact ⟨more ++ v, b, last, by simpa using hshape⟩

/-- Rounds of items whose tokens are known: the tokens of all of them. -/
theorem meetsAt_repeatAfter {opens : Token.Kind → Option β} {hend : opens .endOfInput = none}
    {body : β → Rule σ α} {f : α → List Token.Kind} {P : α → Prop}
    (hbody : ∀ kind b t, opens kind = some b →
      (body b).MeetsAt (fun w a _ => kind :: w = f a ∧ P a) t) (s : σ) :
    (repeatAfter opens body hend).MeetsAt
      (fun w as next => w = as.flatMap f ∧ (∀ a ∈ as, P a) ∧ opens next = none) s := by
  induction hn : remaining s using Nat.strongRecOn generalizing s with
  | _ n ih =>
    rw [repeatAfter_eq opens body hend]
    refine MeetsAt.peek_bind ?_
    cases hopen : opens (current s).kind with
    | none => exact meetsAt_pure ⟨rfl, by simp, hopen⟩
    | some b =>
      have hlt : remaining (advance s) < remaining s := by
        apply remaining_advance_of_ne_end
        intro he
        rw [he, hend] at hopen
        cases hopen
      refine MeetsAt.skip_bind ((hbody _ b (advance s) hopen).bind ?_ ?_)
      · rintro w a t hrun ⟨hitem, hgood⟩
        have hle := remaining_run_le hrun
        refine (ih (remaining t) (by omega) t rfl).bind ?_ ?_
        · rintro v as u - ⟨rfl, hall, hstop⟩
          refine meetsAt_pure ⟨?_, ?_, hstop⟩
          · simp [← hitem]
          · simpa using ⟨hgood, hall⟩
        · rintro v as next ⟨rfl, hall, hstop⟩
          refine ⟨[], a :: as, .endOfInput, ?_, ?_, hend⟩
          · simp [← hitem]
          · simpa using ⟨hgood, hall⟩
      · rintro w a next ⟨hitem, hgood⟩
        refine ⟨[], [a], .endOfInput, ?_, ?_, hend⟩
        · simp [← hitem]
        · simpa using hgood

end Rule

namespace Grammar

/-! ## Conditions -/

/-- What stands after the phrase `before` has made it into a longer one, in
which operators bind at least as tightly as `least`. -/
def climbShape (least : Nat) (before : Phrase) : Shape Condition :=
  fun w c next => ∃ phrase : Phrase, phrase.kinds = before.kinds ++ w ∧ phrase.condition = c ∧
    phrase.Respects ∧ (∀ o ∈ phrase.openOperators, least ≤ o.precedence) ∧
    ∀ op : Operator, next = op.kind → op.precedence < least

/-- A phrase in which operators bind at least as tightly as `least`, with no
such operator after it. -/
def binaryShape (least : Nat) : Shape Condition :=
  fun w c next => ∃ phrase : Phrase, phrase.kinds = w ∧ phrase.condition = c ∧
    phrase.Respects ∧ (∀ o ∈ phrase.openOperators, least ≤ o.precedence) ∧
    ∀ op : Operator, next = op.kind → op.precedence < least

/-- A phrase without open operators. -/
def operandShape : Shape Condition :=
  fun w c _ => ∃ phrase : Phrase, phrase.kinds = w ∧ phrase.condition = c ∧
    phrase.Respects ∧ phrase.openOperators = []

theorem accepts_value (kind : Token.Kind) :
    Expectation.value.accepts kind =
      ((Value.ofKind? kind).isSome || decide (kind = .mark .lparen)) := by
  rcases kind with k | n | n | s | m | _
  · rfl
  · rfl
  · rfl
  · rfl
  · cases m <;> rfl
  · rfl

theorem accepts_closingParen (kind : Token.Kind) :
    Expectation.closingParen.accepts kind = decide (kind = .mark .rparen) := by
  rcases kind with k | n | n | s | m | _
  · rfl
  · rfl
  · rfl
  · rfl
  · cases m <;> rfl
  · rfl

theorem not_operator_of_end (least : Nat) (op : Operator)
    (h : Token.Kind.endOfInput = op.kind) : op.precedence < least := by
  cases op <;> cases h

theorem meetsAt_operand_of {s : σ}
    (ih : ∀ t : σ, remaining t < remaining s → ∀ least,
      (binary least : Rule σ Condition).MeetsAt (binaryShape least) t) :
    (operand : Rule σ Condition).MeetsAt operandShape s := by
  rw [operand_eq]
  refine Rule.MeetsAt.peek_bind ?_
  cases hvalue : Value.ofKind? (current s).kind with
  | some v =>
    have hkind := (Value.ofKind?_eq_some_iff _ _).mp hvalue
    refine Rule.MeetsAt.skip_bind (Rule.meetsAt_pure ?_)
    exact ⟨.value v, by rw [hkind]; rfl, rfl, trivial, rfl⟩
  | none =>
    simp only
    split
    · rename_i hopen
      refine Rule.MeetsAt.skip_bind ?_
      refine (ih (advance s) (remaining_advance_of_lparen hopen) 0).bind ?_ ?_
      · rintro w inner t - ⟨phrase, rfl, rfl, hrespects, -, -⟩
        refine (Rule.meetsAt_takeKind accepts_closingParen t).bind ?_ ?_
        · rintro v _ u - rfl
          refine Rule.meetsAt_pure ⟨.group phrase, ?_, rfl, hrespects, rfl⟩
          simp [Phrase.kinds, hopen]
        · rintro v _ next rfl
          refine ⟨[], _, .endOfInput, .group phrase, ?_, rfl, hrespects, rfl⟩
          simp [Phrase.kinds, hopen]
      · rintro w inner next ⟨phrase, rfl, rfl, hrespects, -, -⟩
        refine ⟨[.mark .rparen], _, .endOfInput, .group phrase, ?_, rfl, hrespects, rfl⟩
        simp [Phrase.kinds, hopen]
    · rename_i hopen
      refine Rule.meetsAt_reject ⟨rfl, ?_, ?_⟩
      · simp [Fault.accepts, accepts_value, hvalue, hopen]
      · intro kind hkind
        simp only [Fault.accepts, accepts_value, Bool.or_eq_true, decide_eq_true_eq] at hkind
        rcases hkind with hkind | rfl
        · obtain ⟨v, hv⟩ := Option.isSome_iff_exists.mp hkind
          obtain rfl := (Value.ofKind?_eq_some_iff _ _).mp hv
          exact ⟨[], _, .endOfInput, .value v, rfl, rfl, trivial, rfl⟩
        · refine ⟨[.name "x", .mark .rparen], _, .endOfInput, .group (.value (.name "x")), rfl, rfl,
            trivial, rfl⟩

/-- The state in which operators that bind at least as tightly as `least` are
read on: `left` has been read, as the phrase `before`, and an operator that comes
next can take all of it as its left operand. -/
structure Climbs (least : Nat) (left : Condition) (next : Token.Kind) (before : Phrase) :
    Prop where
  condition_eq : before.condition = left
  respects : before.Respects
  binds : ∀ o ∈ before.openOperators, least ≤ o.precedence
  takes : ∀ op : Operator, next = op.kind → least ≤ op.precedence →
    ∀ o ∈ before.openOperators, op.precedence ≤ o.precedence

/-- The operator that comes next, with a right operand that binds tighter. -/
theorem Climbs.join {least : Nat} {left : Condition} {before right : Phrase} {op : Operator}
    (h : Climbs least left op.kind before) (hle : least ≤ op.precedence)
    (hright : right.Respects)
    (hopen : ∀ o ∈ right.openOperators, op.precedence + 1 ≤ o.precedence) :
    (Phrase.binary op before right).Respects ∧
      ∀ o ∈ (Phrase.binary op before right).openOperators, op.precedence ≤ o.precedence := by
  have hbefore := h.takes op rfl hle
  refine ⟨Phrase.respects_binary_iff.mpr ⟨h.respects, hright, hbefore, hopen⟩, ?_⟩
  intro o hmem
  simp only [Phrase.openOperators, List.mem_append, List.mem_cons] at hmem
  rcases hmem with hmem | rfl | hmem
  · exact hbefore o hmem
  · exact Nat.le_refl _
  · have := hopen o hmem
    omega

/-- After an operator and its right operand the state is as before, if no operator
comes next that the operand would have taken. -/
theorem Climbs.next {least : Nat} {left : Condition} {next : Token.Kind} {before right : Phrase}
    {op : Operator} (h : Climbs least left op.kind before) (hle : least ≤ op.precedence)
    (hright : right.Respects)
    (hopen : ∀ o ∈ right.openOperators, op.precedence + 1 ≤ o.precedence)
    (hstop : ∀ op' : Operator, next = op'.kind → op'.precedence < op.precedence + 1) :
    Climbs least (.binary op left right.condition) next (.binary op before right) := by
  obtain ⟨hrespects, hall⟩ := h.join hle hright hopen
  refine ⟨by rw [← h.condition_eq]; rfl, hrespects, ?_, ?_⟩
  · intro o hmem
    have := hall o hmem
    omega
  · intro op' hkind _ o hmem
    have := hstop op' hkind
    have := hall o hmem
    omega

theorem meetsAt_climb_of {least : Nat} {left : Condition} {s : σ}
    (ih : ∀ t : σ, remaining t < remaining s →
      (∀ m, (binary m : Rule σ Condition).MeetsAt (binaryShape m) t) ∧
      ∀ m l, ∀ before, Climbs m l (current t).kind before →
        (climb m l : Rule σ Condition).MeetsAt (climbShape m before) t)
    (before : Phrase) (h : Climbs least left (current s).kind before) :
    (climb least left : Rule σ Condition).MeetsAt (climbShape least before) s := by
  rw [climb_eq]
  refine Rule.MeetsAt.peek_bind ?_
  cases hop : Operator.ofKind? (current s).kind with
  | none =>
    refine Rule.meetsAt_pure ⟨before, by simp, h.condition_eq, h.respects, h.binds, ?_⟩
    intro op hkind
    rw [(Operator.ofKind?_eq_some_iff _ _).mpr hkind] at hop
    cases hop
  | some op =>
    have hkind := (Operator.ofKind?_eq_some_iff _ _).mp hop
    simp only
    by_cases hlt : op.precedence < least
    · rw [if_pos hlt]
      refine Rule.meetsAt_pure ⟨before, by simp, h.condition_eq, h.respects, h.binds, ?_⟩
      intro op' hkind'
      rw [← Operator.kind_inj (hkind.symm.trans hkind')]
      exact hlt
    · rw [if_neg hlt]
      have hle : least ≤ op.precedence := by omega
      have hless := remaining_advance_of_operator hop
      rw [hkind] at h
      refine Rule.MeetsAt.skip_bind (((ih (advance s) hless).1 _).bind ?_ ?_)
      · rintro w c t hrun ⟨right, rfl, rfl, hright, hopen, hstop⟩
        have hremaining := Rule.remaining_run_le hrun
        refine ((ih t (by omega)).2 least _ _ (h.next hle hright hopen hstop)).mono ?_
        rintro v c next ⟨phrase, hkinds, hrest⟩
        refine ⟨phrase, ?_, hrest⟩
        simp [hkinds, Phrase.kinds, hkind]
      · rintro w c next ⟨right, rfl, rfl, hright, hopen, -⟩
        obtain ⟨hrespects, hall⟩ := h.join hle hright hopen
        refine ⟨[], _, .endOfInput, .binary op before right, ?_, rfl, hrespects, ?_,
          not_operator_of_end least⟩
        · simp [Phrase.kinds, hkind]
        · intro o hmem
          have := hall o hmem
          omega

/-- What is read as a condition is the condition of a phrase that respects the
order in which operators bind. -/
theorem meetsAt_binary (least : Nat) (s : σ) :
    (binary least : Rule σ Condition).MeetsAt (binaryShape least) s := by
  refine (condition_induct
    (O := fun s : σ => (operand : Rule σ Condition).MeetsAt operandShape s)
    (B := fun m (s : σ) => (binary m : Rule σ Condition).MeetsAt (binaryShape m) s)
    (C := fun m l (s : σ) => ∀ before, Climbs m l (current s).kind before →
      (climb m l : Rule σ Condition).MeetsAt (climbShape m before) s)
    ?_ ?_ ?_).2.1 least s
  · intro s ih
    exact meetsAt_operand_of ih
  · intro least left s ih
    exact meetsAt_climb_of ih
  · intro least s hoperand ih
    rw [binary_eq]
    refine hoperand.bind ?_ ?_
    · rintro w c t hrun ⟨phrase, rfl, hcondition, hrespects, hnone⟩
      have hle := Rule.remaining_run_le hrun
      apply ih t hle c phrase
      exact ⟨hcondition, hrespects, by simp [hnone], by simp [hnone]⟩
    · rintro w c next ⟨phrase, rfl, hcondition, hrespects, hnone⟩
      exact ⟨[], c, .endOfInput, phrase, by simp, hcondition, hrespects, by simp [hnone],
        not_operator_of_end least⟩

/-! ## Columns and clauses -/

theorem accepts_column (kind : Token.Kind) :
    Expectation.column.accepts kind = true ↔ kind = .mark .star ∨ ∃ n, kind = .name n := by
  constructor
  · intro haccepts
    cases kind with
    | name n => exact Or.inr ⟨n, rfl⟩
    | mark m =>
      cases m with
      | star => exact Or.inl rfl
      | _ => cases haccepts
    | _ => cases haccepts
  · rintro (rfl | ⟨n, rfl⟩)
    · rfl
    · rfl

/-- Where the grammar expects a name and nothing but a name. -/
theorem accepts_name {expected : Expectation} (h : expected = .argument ∨ expected = .tableName)
    (kind : Token.Kind) : expected.accepts kind = true ↔ ∃ n, kind = .name n := by
  rcases h with rfl | rfl
  all_goals
    constructor
    · intro haccepts
      cases kind with
      | name n => exact ⟨n, rfl⟩
      | _ => cases haccepts
    · rintro ⟨n, rfl⟩
      rfl

theorem meetsAt_column (s : σ) :
    (column : Rule σ Column).MeetsAt (fun w c _ => w = c.kinds) s := by
  unfold column
  refine Rule.MeetsAt.peek_bind ?_
  split
  · rename_i hstar
    refine Rule.MeetsAt.skip_bind (Rule.meetsAt_pure ?_)
    rw [hstar]
    rfl
  · rename_i hstar
    by_cases hname : ∃ n, (current s).kind = .name n
    · obtain ⟨n, hn⟩ := hname
      have hfirst : (Rule.takeName .column : Rule σ String).MeetsAt
          (fun w n _ => w = [.name n]) s :=
        Or.inl ⟨[.name n], n, advance s, Rule.run_takeName_ok hn, ⟨hn, rfl⟩, rfl⟩
      refine hfirst.bind ?_ ?_
      · rintro w name t - rfl
        refine Rule.MeetsAt.peek_bind ?_
        split
        · rename_i hopen
          refine Rule.MeetsAt.skip_bind ?_
          refine (Rule.meetsAt_takeName (accepts_name (Or.inl rfl)) (advance t)).bind ?_ ?_
          · rintro v argument u - rfl
            refine (Rule.meetsAt_takeKind accepts_closingParen u).bind ?_ ?_
            · rintro v _ x - rfl
              refine Rule.meetsAt_pure ?_
              simp [hopen, Column.kinds]
            · rintro v _ next rfl
              exact ⟨[], .call name argument, .endOfInput, by simp [hopen, Column.kinds]⟩
          · rintro v argument next rfl
            exact ⟨[.mark .rparen], .call name argument, .endOfInput,
              by simp [hopen, Column.kinds]⟩
        · exact Rule.meetsAt_pure rfl
      · rintro w name next rfl
        exact ⟨[], .name name, .endOfInput, rfl⟩
    · -- Neither a star nor a name: the fault asks for both.
      refine Or.inr ⟨[], _, s, Rule.run_bind_error (Rule.run_takeName_error hname), rfl, rfl,
        ?_, ?_⟩
      · rw [← Bool.not_eq_true]
        intro haccepts
        rcases (accepts_column _).mp haccepts with h | h
        · exact hstar h
        · exact hname h
      · intro kind hkind
        rcases (accepts_column kind).mp hkind with rfl | ⟨n, rfl⟩
        · exact ⟨[], .star, .endOfInput, rfl⟩
        · exact ⟨[], .name n, .endOfInput, rfl⟩

theorem meetsAt_moreColumns (s : σ) :
    (moreColumns : Rule σ (List Column)).MeetsAt
      (fun w cs _ => w = cs.flatMap Column.kindsAfterComma) s := by
  unfold moreColumns
  refine (Rule.meetsAt_repeatAfter (f := Column.kindsAfterComma) (P := fun _ => True)
    ?_ s).mono ?_
  · intro kind b t hopen
    refine (meetsAt_column t).mono ?_
    rintro w c next rfl
    by_cases hk : kind = .mark .comma
    · exact ⟨by rw [hk]; rfl, trivial⟩
    · simp [hk] at hopen
  · rintro w cs next ⟨rfl, -, -⟩
    rfl

theorem meetsAt_columnList (s : σ) :
    (columnList : Rule σ (List Column)).MeetsAt
      (fun w cs _ => w = Column.listKinds cs ∧ cs ≠ []) s := by
  unfold columnList
  refine Rule.MeetsAt.peek_bind ?_
  split
  · refine (meetsAt_column s).bind ?_ ?_
    · rintro w first t - rfl
      refine (meetsAt_moreColumns t).bind ?_ ?_
      · rintro v others u - rfl
        exact Rule.meetsAt_pure ⟨by simp [Column.listKinds], by simp⟩
      · rintro v others next rfl
        exact ⟨[], first :: others, .endOfInput, by simp [Column.listKinds], by simp⟩
    · rintro w first next rfl
      exact ⟨[], [first], .endOfInput, by simp [Column.listKinds], by simp⟩
  · rename_i hrefused
    refine Rule.meetsAt_reject ⟨rfl, by simpa [Fault.accepts] using hrefused, ?_⟩
    intro kind hkind
    rcases (accepts_column kind).mp hkind with rfl | ⟨n, rfl⟩
    · exact ⟨[], [.star], .endOfInput, rfl, by simp⟩
    · exact ⟨[], [.name n], .endOfInput, rfl, by simp⟩

theorem meetsAt_filter (s : σ) :
    (filter : Rule σ (Option Condition)).MeetsAt
      (fun w c _ => ∃ phrase : Option Phrase, w = filterKinds phrase ∧
        phrase.map Phrase.condition = c ∧ ∀ p ∈ phrase, p.Respects) s := by
  unfold filter
  refine Rule.MeetsAt.peek_bind ?_
  split
  · rename_i hwhere
    refine Rule.MeetsAt.skip_bind ((meetsAt_binary 0 (advance s)).bind ?_ ?_)
    · rintro w c t - ⟨phrase, rfl, rfl, hrespects, -, -⟩
      exact Rule.meetsAt_pure ⟨some phrase, by simp [hwhere, filterKinds], rfl,
        by simpa using hrespects⟩
    · rintro w c next ⟨phrase, rfl, rfl, hrespects, -, -⟩
      exact ⟨[], _, .endOfInput, some phrase, by simp [hwhere, filterKinds], rfl,
        by simpa using hrespects⟩
  · exact Rule.meetsAt_pure ⟨none, rfl, rfl, by simp⟩

theorem meetsAt_clauses (s : σ) :
    (clauses : Rule σ (List Clause)).MeetsAt
      (fun w cs _ => w = cs.flatMap Clause.kinds ∧ ∀ c ∈ cs, c.Proper) s := by
  unfold clauses
  refine (Rule.meetsAt_repeatAfter (f := Clause.kinds) (P := Clause.Proper) ?_ s).mono ?_
  · intro kind opener t hopen
    unfold Opener.ofKind? at hopen
    split at hopen
    · cases hopen
      unfold clauseAfter
      refine (Rule.meetsAt_take ?_ t).bind ?_ ?_
      · rintro (_ | _ | _ | _ | _ | _) <;> rfl
      · rintro w count u - ⟨k, rfl, hk⟩
        refine Rule.meetsAt_pure ⟨?_, trivial⟩
        cases k <;> simp_all [Clause.kinds]
      · rintro w count next ⟨k, rfl, hk⟩
        refine ⟨[], .limit count, .endOfInput, ?_, trivial⟩
        cases k <;> simp_all [Clause.kinds]
    · cases hopen
      unfold clauseAfter
      refine (Rule.meetsAt_takeKind ?_ t).bind ?_ ?_
      · rintro (k | _ | _ | _ | _ | _)
        · cases k <;> rfl
        all_goals rfl
      · rintro w _ u - rfl
        refine (meetsAt_columnList u).bind ?_ ?_
        · rintro v columns x - ⟨rfl, hne⟩
          exact Rule.meetsAt_pure ⟨by simp [Clause.kinds], hne⟩
        · rintro v columns next ⟨rfl, hne⟩
          exact ⟨[], .orderBy columns, .endOfInput, by simp [Clause.kinds], hne⟩
      · rintro w _ next rfl
        exact ⟨[.mark .star], .orderBy [.star], .endOfInput, rfl, by simp [Clause.Proper]⟩
    · cases hopen
  · rintro w cs next ⟨rfl, hproper, -⟩
    exact ⟨rfl, hproper⟩

/-! ## Statements -/

/-- The tokens are those of a sentence that respects the order in which
operators bind, and what is read is its statement. -/
def statementShape (tokens : Sentence → List Token.Kind) : Shape Statement :=
  fun w st _ => ∃ d : Sentence, d.Respects ∧ tokens d = w ∧ d.statement = st

theorem meetsAt_statement (s : σ) :
    (statement : Rule σ Statement).MeetsAt (statementShape Sentence.body) s := by
  unfold statement
  refine (Rule.meetsAt_takeKind ?_ s).bind ?_ ?_
  · rintro (k | _ | _ | _ | _ | _)
    · cases k <;> rfl
    all_goals rfl
  · rintro w _ t - rfl
    refine (meetsAt_columnList t).bind ?_ ?_
    · rintro w columns t - ⟨rfl, hcolumns⟩
      refine (Rule.meetsAt_takeKind ?_ t).bind ?_ ?_
      · rintro (k | _ | _ | _ | _ | _)
        · cases k <;> rfl
        all_goals rfl
      · rintro w _ t - rfl
        refine (Rule.meetsAt_takeName (accepts_name (Or.inr rfl)) t).bind ?_ ?_
        · rintro w table t - rfl
          refine (meetsAt_filter t).bind ?_ ?_
          · rintro w condition t - ⟨phrase, rfl, rfl, hrespects⟩
            refine (meetsAt_clauses t).bind ?_ ?_
            · rintro w clauses t - ⟨rfl, hproper⟩
              refine Rule.meetsAt_pure ⟨⟨columns, hcolumns, table, phrase, clauses, hproper⟩,
                hrespects, ?_, Sentence.statement_eq _⟩
              simp [Sentence.body]
            · rintro w clauses next ⟨rfl, hproper⟩
              refine ⟨[], _, .endOfInput, ⟨columns, hcolumns, table, phrase, clauses, hproper⟩,
                hrespects, ?_, rfl⟩
              simp [Sentence.body]
          · rintro w condition next ⟨phrase, rfl, rfl, hrespects⟩
            refine ⟨[], _, .endOfInput, ⟨columns, hcolumns, table, phrase, [], by simp⟩,
              hrespects, ?_, rfl⟩
            simp [Sentence.body]
        · rintro w table next rfl
          refine ⟨[], _, .endOfInput, ⟨columns, hcolumns, table, none, [], by simp⟩,
            by simp [Sentence.Respects], ?_, rfl⟩
          simp [Sentence.body, filterKinds]
      · rintro w _ next rfl
        refine ⟨[.name "t"], _, .endOfInput, ⟨columns, hcolumns, "t", none, [], by simp⟩,
          by simp [Sentence.Respects], ?_, rfl⟩
        simp [Sentence.body, filterKinds]
    · rintro w columns next ⟨rfl, hcolumns⟩
      refine ⟨[.keyword .fromKw, .name "t"], _, .endOfInput,
        ⟨columns, hcolumns, "t", none, [], by simp⟩, by simp [Sentence.Respects], ?_, rfl⟩
      simp [Sentence.body, filterKinds]
  · rintro w _ next rfl
    refine ⟨[.mark .star, .keyword .fromKw, .name "t"], _, .endOfInput,
      ⟨[.star], by simp, "t", none, [], by simp⟩, by simp [Sentence.Respects], ?_, rfl⟩
    simp [Sentence.body, filterKinds, Column.listKinds, Column.kinds]

/-- What is read as a query is the statement of a sentence that respects the
order in which operators bind. -/
theorem meetsAt_query (s : σ) :
    (query : Rule σ Statement).MeetsAt (statementShape Sentence.kinds) s := by
  unfold query
  refine (meetsAt_statement s).bind ?_ ?_
  · rintro w st t - ⟨d, hrespects, rfl, rfl⟩
    refine (Rule.meetsAt_takeKind ?_ t).bind ?_ ?_
    · rintro (_ | _ | _ | _ | _ | _) <;> rfl
    · rintro w _ u - rfl
      exact Rule.meetsAt_pure ⟨d, hrespects, by simp [Sentence.kinds], rfl⟩
    · rintro w _ next rfl
      exact ⟨[], _, .endOfInput, d, hrespects, by simp [Sentence.kinds], rfl⟩
  · rintro w st next ⟨d, hrespects, rfl, rfl⟩
    exact ⟨[.endOfInput], _, .endOfInput, d, hrespects, rfl, rfl⟩

end Grammar

end SelectQuery
