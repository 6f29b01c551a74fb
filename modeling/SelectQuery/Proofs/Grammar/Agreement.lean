-- What a source shows, and what a rule looks at. A rule looks at no token past
-- the one where it stops, and at nothing but the kinds of those before. So two
-- sources that show the same tokens up to there are read alike, whatever they
-- are made of, and other lines of the tokens change nothing but the fault's.
import SelectQuery.Grammar.Statement
import Mathlib.Logic.Function.Iterate

namespace SelectQuery

variable {σ τ : Type} [TokenSource σ] [TokenSource τ] {α β : Type}

/-! ## The tokens of a source -/

/-- The token that a source shows after `n` others. -/
def tokenAt (s : σ) (n : Nat) : Token :=
  current (advance^[n] s)

/-- From one source another is reached by reading tokens of these kinds. -/
def Reads (s : σ) : List Token.Kind → σ → Prop
  | [], t => t = s
  | kind :: kinds, t => (current s).kind = kind ∧ Reads (advance s) kinds t

theorem tokenAt_advance (s : σ) (k n : Nat) : tokenAt (advance^[k] s) n = tokenAt s (n + k) := by
  unfold tokenAt
  rw [Function.iterate_add_apply]

theorem reads_append {s u : σ} {v w : List Token.Kind} :
    Reads s (v ++ w) u ↔ ∃ t, Reads s v t ∧ Reads t w u := by
  induction v generalizing s with
  | nil => simp [Reads]
  | cons kind v ih =>
    simp only [List.cons_append, Reads, ih]
    constructor
    · rintro ⟨hkind, t, hv, hw⟩
      exact ⟨t, ⟨hkind, hv⟩, hw⟩
    · rintro ⟨t, ⟨hkind, hv⟩, hw⟩
      exact ⟨hkind, t, hv, hw⟩

theorem reads_iff {s t : σ} {w : List Token.Kind} :
    Reads s w t ↔
      t = advance^[w.length] s ∧ ∀ i (hi : i < w.length), (tokenAt s i).kind = w[i] := by
  induction w generalizing s with
  | nil => simp [Reads]
  | cons kind w ih =>
    simp only [Reads, ih, List.length_cons, Function.iterate_succ_apply]
    constructor
    · rintro ⟨hkind, rfl, hw⟩
      refine ⟨rfl, ?_⟩
      intro i hi
      cases i with
      | zero => exact hkind
      | succ i =>
        rw [List.getElem_cons_succ, ← hw i (by omega)]
        rfl
    · rintro ⟨rfl, hw⟩
      refine ⟨hw 0 (by omega), rfl, ?_⟩
      intro i hi
      have := hw (i + 1) (by omega)
      rw [List.getElem_cons_succ] at this
      exact this

theorem remaining_advance_of_ne_end {s : σ} (h : (current s).kind ≠ .endOfInput) :
    remaining (advance s) < remaining s := by
  apply remaining_advance_lt
  unfold Token.isEnd
  by_contra hend
  exact h ((Token.Kind.isEnd_iff _).mp (by simpa using hend))

/-- Tokens before the end of the query are used up as they are read. -/
theorem remaining_of_reads {s t : σ} {w : List Token.Kind} (h : Reads s w t)
    (hend : Token.Kind.endOfInput ∉ w) : remaining t + w.length ≤ remaining s := by
  induction w generalizing s with
  | nil =>
    obtain rfl : t = s := h
    simp
  | cons kind w ih =>
    obtain ⟨hkind, hw⟩ := h
    simp only [List.mem_cons, not_or] at hend
    have hlt : remaining (advance s) < remaining s := by
      apply remaining_advance_of_ne_end
      rw [hkind]
      exact Ne.symm hend.1
    have := ih hw hend.2
    simp only [List.length_cons]
    omega

/-! ## Rules that agree -/

/-- The fault with another token in the place of its own. -/
def Fault.pointTo : Fault → Token → Fault
  | unexpected expected _, token => unexpected expected token
  | noColumns _, token => noColumns token

theorem Fault.pointTo_found (fault : Fault) : fault.pointTo fault.found = fault := by
  cases fault <;> rfl

namespace Rule

/-- Two rules agree at `s`: from any source that shows the tokens of `s` up to
the one where the first rule stops, the second stops there too, with the same
outcome. -/
def AgreesAt (p : Rule σ α) (q : Rule τ α) (s : σ) : Prop :=
  ∃ k, (p.run s).2 = advance^[k] s ∧
    ∀ t : τ, (∀ i ≤ k, tokenAt s i = tokenAt t i) → q.run t = ((p.run s).1, advance^[k] t)

/-- Two rules match at `s`: a source need only show tokens of the same kinds up
to the one where the first rule stops. The second stops there too, and a fault
points to the token of its own source. -/
def MatchesAt (p : Rule σ α) (q : Rule τ α) (s : σ) : Prop :=
  ∃ k, (p.run s).2 = advance^[k] s ∧
    (∀ fault, (p.run s).1 = .error fault → fault.found = tokenAt s k) ∧
    ∀ t : τ, (∀ i ≤ k, (tokenAt s i).kind = (tokenAt t i).kind) →
      q.run t = ((p.run s).1.mapError (·.pointTo (tokenAt t k)), advance^[k] t)

/-- Where the first of two rules that match stops, a fault shows the token there,
and on the same tokens up to there the second does the same. -/
theorem MatchesAt.exists_stop {p : Rule σ α} {q : Rule τ α} {s : σ} (h : p.MatchesAt q s) :
    ∃ k, (p.run s).2 = advance^[k] s ∧
      (∀ fault, (p.run s).1 = .error fault → fault.found = tokenAt s k) ∧
      ∀ t : τ, (∀ i ≤ k, tokenAt s i = tokenAt t i) → q.run t = ((p.run s).1, advance^[k] t) := by
  obtain ⟨k, hk, hfound, hq⟩ := h
  refine ⟨k, hk, hfound, ?_⟩
  intro t ht
  rw [hq t fun i hi => by rw [ht i hi], ← ht k (Nat.le_refl k)]
  rcases hrun : (p.run s).1 with fault | a
  · rw [← hfound fault hrun]
    change (Except.error (fault.pointTo fault.found), _) = _
    rw [fault.pointTo_found]
  · rfl

/-- Rules that match agree: on the same tokens a fault is the same. -/
theorem MatchesAt.agreesAt {p : Rule σ α} {q : Rule τ α} {s : σ} (h : p.MatchesAt q s) :
    p.AgreesAt q s := by
  obtain ⟨k, hk, -, hq⟩ := h.exists_stop
  exact ⟨k, hk, hq⟩

theorem matchesAt_pure (a : α) (s : σ) : (pure a : Rule σ α).MatchesAt (pure a : Rule τ α) s := by
  refine ⟨0, rfl, ?_, fun _ _ => rfl⟩
  intro fault h
  cases h

theorem matchesAt_peek (s : σ) :
    (peek : Rule σ Token.Kind).MatchesAt (peek : Rule τ Token.Kind) s := by
  refine ⟨0, rfl, ?_, ?_⟩
  · intro fault h
    cases h
  · intro t h
    have hcurrent : (current s).kind = (current t).kind := h 0 (Nat.le_refl 0)
    rw [run_peek, run_peek, hcurrent]
    rfl

theorem matchesAt_skip (s : σ) : (skip : Rule σ Unit).MatchesAt (skip : Rule τ Unit) s := by
  refine ⟨1, rfl, ?_, fun _ _ => rfl⟩
  intro fault h
  cases h

theorem matchesAt_reject {fault : Token → Fault} (hfound : ∀ a, (fault a).found = a)
    (hpoint : ∀ a b, (fault a).pointTo b = fault b) (s : σ) :
    (reject fault : Rule σ α).MatchesAt (reject fault : Rule τ α) s := by
  refine ⟨0, rfl, ?_, ?_⟩
  · intro other h
    cases h
    exact hfound _
  · intro t _
    change _ = (Except.error ((fault (current s)).pointTo (current t)), t)
    rw [run_reject, hpoint]

theorem matchesAt_take (expected : Expectation) (read? : Token.Kind → Option α) (s : σ) :
    (take expected read? : Rule σ α).MatchesAt (take expected read? : Rule τ α) s := by
  cases hread : read? (current s).kind with
  | none =>
    rw [MatchesAt, run_take_error hread]
    refine ⟨0, rfl, ?_, ?_⟩
    · intro fault h
      cases h
      rfl
    · intro t h
      have hcurrent : (current s).kind = (current t).kind := h 0 (Nat.le_refl 0)
      rw [hcurrent] at hread
      exact run_take_error hread
  | some a =>
    rw [MatchesAt, run_take_ok hread]
    refine ⟨1, rfl, ?_, ?_⟩
    · intro fault h
      cases h
    · intro t h
      have hcurrent : (current s).kind = (current t).kind := h 0 (Nat.zero_le 1)
      rw [hcurrent] at hread
      exact run_take_ok hread

theorem MatchesAt.bind {p : Rule σ α} {q : Rule τ α} {f : α → Rule σ β} {g : α → Rule τ β} {s : σ}
    (hp : p.MatchesAt q s) (hf : ∀ a t, p.run s = (.ok a, t) → (f a).MatchesAt (g a) t) :
    (p >>= f).MatchesAt (q >>= g) s := by
  obtain ⟨k, hk, hfound, hq⟩ := hp
  rcases hrun : p.run s with ⟨fault | a, u⟩
  · rw [hrun] at hk hfound hq
    rw [MatchesAt, run_bind_error hrun]
    refine ⟨k, hk, ?_, ?_⟩
    · intro other h
      cases h
      exact hfound fault rfl
    · intro t h
      exact run_bind_error (hq t h)
  · obtain ⟨m, hm, hfault, hg⟩ := hf a u hrun
    rw [hrun] at hk hq
    obtain rfl : u = advance^[k] s := hk
    rw [MatchesAt, run_bind_ok hrun]
    refine ⟨m + k, by rw [hm, Function.iterate_add_apply], ?_, ?_⟩
    · intro fault h
      rw [hfault fault h, tokenAt_advance]
    · intro t h
      have hlow := hq t fun i hi => h i (by omega)
      have hhigh := hg (advance^[k] t) fun i hi => by
        rw [tokenAt_advance, tokenAt_advance]
        exact h (i + k) (by omega)
      rw [run_bind_ok hlow, hhigh, tokenAt_advance, Function.iterate_add_apply]

/-- What a rule leaves has no more tokens than it was given. -/
theorem remaining_run_le {p : Rule σ α} {s t : σ} {o : Except Fault α} (h : p.run s = (o, t)) :
    remaining t ≤ remaining s := by
  have := p.remaining_le s
  rw [h] at this
  exact this

theorem matchesAt_repeatAfter {opens : Token.Kind → Option β} {hend : opens .endOfInput = none}
    {p : β → Rule σ α} {q : β → Rule τ α} (h : ∀ b t, (p b).MatchesAt (q b) t) (s : σ) :
    (repeatAfter opens p hend).MatchesAt (repeatAfter opens q hend) s := by
  -- Each round uses up the token that opens it.
  induction hn : remaining s using Nat.strongRecOn generalizing s with
  | _ n ih =>
    rw [repeatAfter_eq opens p hend, repeatAfter_eq opens q hend]
    refine (matchesAt_peek s).bind ?_
    intro kind t hpeek
    cases hpeek
    cases hopen : opens (current s).kind with
    | none => exact matchesAt_pure [] s
    | some b =>
      have hlt : remaining (advance s) < remaining s := by
        apply remaining_advance_of_ne_end
        intro he
        rw [he, hend] at hopen
        cases hopen
      refine (matchesAt_skip s).bind ?_
      intro _ t hskip
      cases hskip
      refine (h b (advance s)).bind ?_
      intro a u hbody
      have hle := remaining_run_le hbody
      refine (ih (remaining u) (by omega) u rfl).bind ?_
      intro as v _
      exact matchesAt_pure (a :: as) v

end Rule

namespace Grammar

/-! ## The recursion of conditions -/

/-- To show something of operands, conditions and what follows an operand, it
is enough to show it where it holds after fewer tokens. -/
theorem condition_induct {O : σ → Prop} {B : Nat → σ → Prop} {C : Nat → Condition → σ → Prop}
    (operand : ∀ s, (∀ t, remaining t < remaining s → ∀ least, B least t) → O s)
    (climb : ∀ least left s,
      (∀ t, remaining t < remaining s → (∀ m, B m t) ∧ ∀ m l, C m l t) → C least left s)
    (binary : ∀ least s, O s →
      (∀ t, remaining t ≤ remaining s → ∀ left, C least left t) → B least s) :
    (∀ s, O s) ∧ (∀ least s, B least s) ∧ ∀ least left s, C least left s := by
  have hall : ∀ n, ∀ s : σ, remaining s = n →
      O s ∧ (∀ least, B least s) ∧ ∀ least left, C least left s := by
    intro n
    induction n using Nat.strongRecOn with
    | _ n ih =>
      intro s hs
      have hless : ∀ t : σ, remaining t < remaining s →
          (∀ m, B m t) ∧ ∀ m l, C m l t := fun t ht => (ih (remaining t) (by omega) t rfl).2
      have hoperand : O s := operand s fun t ht => (hless t ht).1
      -- After an operand as many tokens may remain as before it.
      have hclimb : ∀ t : σ, remaining t ≤ remaining s → ∀ least left, C least left t := by
        intro t ht least left
        exact climb least left t fun u hu => (ih (remaining u) (by omega) u rfl).2
      refine ⟨hoperand, ?_, hclimb s (Nat.le_refl _)⟩
      intro least
      exact binary least s hoperand fun t ht left => hclimb t ht least left
  refine ⟨fun s => (hall _ s rfl).1, fun least s => (hall _ s rfl).2.1 least, ?_⟩
  intro least left s
  exact (hall _ s rfl).2.2 least left

theorem remaining_advance_of_operator {s : σ} {op : Operator}
    (h : Operator.ofKind? (current s).kind = some op) :
    remaining (advance s) < remaining s := by
  apply remaining_advance_of_ne_end
  intro he
  rw [he] at h
  cases h

theorem remaining_advance_of_lparen {s : σ} (h : (current s).kind = .mark .lparen) :
    remaining (advance s) < remaining s := by
  apply remaining_advance_of_ne_end
  rw [h]
  simp

/-! ## Every rule matches itself on another source -/

theorem matchesAt_binary (least : Nat) (s : σ) :
    (binary least : Rule σ Condition).MatchesAt (binary least : Rule τ Condition) s := by
  refine (condition_induct
    (O := fun s : σ => (operand : Rule σ Condition).MatchesAt (operand : Rule τ Condition) s)
    (B := fun m (s : σ) => (binary m : Rule σ Condition).MatchesAt (binary m : Rule τ Condition) s)
    (C := fun m left (s : σ) =>
      (climb m left : Rule σ Condition).MatchesAt (climb m left : Rule τ Condition) s)
    ?_ ?_ ?_).2.1 least s
  · intro s ih
    rw [operand_eq, operand_eq]
    refine (Rule.matchesAt_peek s).bind ?_
    intro kind t hpeek
    cases hpeek
    split
    · refine (Rule.matchesAt_skip s).bind ?_
      intro _ t _
      exact Rule.matchesAt_pure _ t
    · split
      · rename_i hopen
        refine (Rule.matchesAt_skip s).bind ?_
        intro _ t hskip
        cases hskip
        refine (ih (advance s) (remaining_advance_of_lparen hopen) 0).bind ?_
        intro inner u _
        refine (Rule.matchesAt_take _ _ u).bind ?_
        intro _ v _
        exact Rule.matchesAt_pure inner v
      · exact Rule.matchesAt_reject (fun _ => rfl) (fun _ _ => rfl) s
  · intro least left s ih
    rw [climb_eq, climb_eq]
    refine (Rule.matchesAt_peek s).bind ?_
    intro kind t hpeek
    cases hpeek
    split
    · exact Rule.matchesAt_pure left s
    · rename_i op hop
      have hlt := remaining_advance_of_operator hop
      split
      · exact Rule.matchesAt_pure left s
      · refine (Rule.matchesAt_skip s).bind ?_
        intro _ t hskip
        cases hskip
        refine ((ih (advance s) hlt).1 _).bind ?_
        intro right u hright
        have hle := Rule.remaining_run_le hright
        exact (ih u (by omega)).2 _ _
  · intro least s hoperand ih
    rw [binary_eq, binary_eq]
    refine hoperand.bind ?_
    intro left t hleft
    exact ih t (Rule.remaining_run_le hleft) left

theorem matchesAt_column (s : σ) :
    (column : Rule σ Column).MatchesAt (column : Rule τ Column) s := by
  unfold column
  refine (Rule.matchesAt_peek s).bind ?_
  intro kind t _
  split
  · refine (Rule.matchesAt_skip t).bind ?_
    intro _ u _
    exact Rule.matchesAt_pure _ u
  · refine (Rule.matchesAt_take _ _ t).bind ?_
    intro name u _
    refine (Rule.matchesAt_peek u).bind ?_
    intro kind v _
    split
    · refine (Rule.matchesAt_skip v).bind ?_
      intro _ x _
      refine (Rule.matchesAt_take _ _ x).bind ?_
      intro argument y _
      refine (Rule.matchesAt_take _ _ y).bind ?_
      intro _ z _
      exact Rule.matchesAt_pure _ z
    · exact Rule.matchesAt_pure _ v

theorem matchesAt_columnList (s : σ) :
    (columnList : Rule σ (List Column)).MatchesAt (columnList : Rule τ (List Column)) s := by
  unfold columnList
  refine (Rule.matchesAt_peek s).bind ?_
  intro kind t _
  split
  · refine (matchesAt_column t).bind ?_
    intro first u _
    refine (Rule.matchesAt_repeatAfter (fun _ v => matchesAt_column v) u).bind ?_
    intro others v _
    exact Rule.matchesAt_pure _ v
  · exact Rule.matchesAt_reject (fun _ => rfl) (fun _ _ => rfl) t

theorem matchesAt_filter (s : σ) :
    (filter : Rule σ (Option Condition)).MatchesAt (filter : Rule τ (Option Condition)) s := by
  unfold filter
  refine (Rule.matchesAt_peek s).bind ?_
  intro kind t _
  split
  · refine (Rule.matchesAt_skip t).bind ?_
    intro _ u _
    refine (matchesAt_binary 0 u).bind ?_
    intro found v _
    exact Rule.matchesAt_pure _ v
  · exact Rule.matchesAt_pure _ t

theorem matchesAt_clauseAfter (opener : Opener) (s : σ) :
    (clauseAfter opener : Rule σ Clause).MatchesAt (clauseAfter opener : Rule τ Clause) s := by
  cases opener with
  | limit =>
    refine (Rule.matchesAt_take _ _ s).bind ?_
    intro count t _
    exact Rule.matchesAt_pure _ t
  | order =>
    refine (Rule.matchesAt_take _ _ s).bind ?_
    intro _ t _
    refine (matchesAt_columnList t).bind ?_
    intro columns u _
    exact Rule.matchesAt_pure _ u

theorem matchesAt_statement (s : σ) :
    (statement : Rule σ Statement).MatchesAt (statement : Rule τ Statement) s := by
  unfold statement
  refine (Rule.matchesAt_take _ _ s).bind ?_
  intro _ t _
  refine (matchesAt_columnList t).bind ?_
  intro columns u _
  refine (Rule.matchesAt_take _ _ u).bind ?_
  intro _ v _
  refine (Rule.matchesAt_take _ _ v).bind ?_
  intro table x _
  refine (matchesAt_filter x).bind ?_
  intro condition y _
  refine (Rule.matchesAt_repeatAfter matchesAt_clauseAfter y).bind ?_
  intro clauses z _
  exact Rule.matchesAt_pure _ z

theorem matchesAt_query (s : σ) :
    (query : Rule σ Statement).MatchesAt (query : Rule τ Statement) s := by
  unfold query
  refine (matchesAt_statement s).bind ?_
  intro statement t _
  refine (Rule.matchesAt_take _ _ t).bind ?_
  intro _ u _
  exact Rule.matchesAt_pure _ u

/-- Reading a query looks at no token past the one where it stops. -/
theorem agreesAt_query (s : σ) :
    (query : Rule σ Statement).AgreesAt (query : Rule τ Statement) s :=
  (matchesAt_query s).agreesAt

end Grammar

end SelectQuery
