-- What stands before a fault. Lists of columns come after the keywords that open
-- a statement or an order, and a rule says that one is missing right after such
-- a keyword and nowhere else.
import SelectQuery.Proofs.Grammar.Soundness

namespace SelectQuery

variable {σ : Type} [TokenSource σ] {α β : Type}

/-! ## The token before a place -/

/-- The token before a place, if there is one, opens a list of columns. -/
def OpensColumns (before : Option Token.Kind) : Prop :=
  before = some (.keyword .selectKw) ∨ before = some (.keyword .byKw)

/-- A fault fits the token before it: a list of columns is missing exactly where
that token opens one. -/
def Fault.Fits (fault : Fault) (before : Option Token.Kind) : Prop :=
  (∃ found, fault = .noColumns found) ↔ OpensColumns before

theorem Fault.fits_unexpected {before : Option Token.Kind} (h : ¬ OpensColumns before)
    (expected : Expectation) (found : Token) : (unexpected expected found).Fits before := by
  simp [Fits, h]

theorem Fault.fits_noColumns {before : Option Token.Kind} (h : OpensColumns before)
    (found : Token) : (noColumns found).Fits before := by
  simp [Fits, h]

namespace Rule

/-- From `s`, where `before` is the token before, the rule reads on to a place
where the token before meets `after`; or it stops with a fault that fits the token
before. -/
def LeadsAt (p : Rule σ α) (before : Option Token.Kind) (after : Option Token.Kind → Prop)
    (s : σ) : Prop :=
  (∃ w a t, p.run s = (.ok a, t) ∧ Reads s w t ∧ .endOfInput ∉ w ∧
    after (w.getLast?.or before)) ∨
  ∃ w fault t, p.run s = (.error fault, t) ∧ Reads s w t ∧ .endOfInput ∉ w ∧
    fault.Fits (w.getLast?.or before)

variable {before : Option Token.Kind} {after : Option Token.Kind → Prop} {s : σ}

/-! ## One rule after another -/

theorem leadsAt_pure {a : α} (h : after before) : (pure a : Rule σ α).LeadsAt before after s :=
  Or.inl ⟨[], a, s, rfl, rfl, by simp, h⟩

theorem leadsAt_reject {fault : Token → Fault} (h : (fault (current s)).Fits before) :
    (reject fault : Rule σ α).LeadsAt before after s :=
  Or.inr ⟨[], fault (current s), s, rfl, rfl, by simp, h⟩

theorem LeadsAt.mono {p : Rule σ α} {between : Option Token.Kind → Prop}
    (h : p.LeadsAt before between s) (himp : ∀ last, between last → after last) :
    p.LeadsAt before after s := by
  rcases h with ⟨w, a, t, hrun, hreads, hend, hlast⟩ | hfault
  · exact Or.inl ⟨w, a, t, hrun, hreads, hend, himp _ hlast⟩
  · exact Or.inr hfault

/-- Right after a keyword that opens a list of columns, no token may be refused as
an unexpected one. -/
theorem leadsAt_take {expected : Expectation} {read? : Token.Kind → Option α}
    (hend : read? .endOfInput = none)
    (hbefore : OpensColumns before → (read? (current s).kind).isSome) :
    (take expected read? : Rule σ α).LeadsAt before
      (fun last => ∃ kind, last = some kind ∧ (read? kind).isSome) s := by
  cases hread : read? (current s).kind with
  | some a =>
    refine Or.inl ⟨[(current s).kind], a, _, run_take_ok hread, ⟨rfl, rfl⟩, ?_,
      _, rfl, by simp [hread]⟩
    intro hmem
    rw [← List.mem_singleton.mp hmem, hend] at hread
    cases hread
  | none =>
    refine Or.inr ⟨[], _, _, run_take_error hread, rfl, by simp, ?_⟩
    apply Fault.fits_unexpected
    intro hopens
    simpa [hread] using hbefore hopens

theorem leadsAt_takeKind {expected : Expectation} {kind : Token.Kind}
    (hend : kind ≠ .endOfInput) (hbefore : ¬ OpensColumns before) :
    (takeKind expected kind : Rule σ Unit).LeadsAt before (· = some kind) s := by
  refine (leadsAt_take (by simp [hend.symm]) fun h => absurd h hbefore).mono ?_
  rintro last ⟨k, rfl, hk⟩
  by_cases heq : k = kind
  · rw [heq]
  · simp [heq] at hk

theorem leadsAt_takeName {expected : Expectation}
    (hbefore : OpensColumns before → ∃ n, (current s).kind = .name n) :
    (takeName expected : Rule σ String).LeadsAt before (¬ OpensColumns ·) s := by
  refine (leadsAt_take rfl ?_).mono ?_
  · intro hopens
    obtain ⟨n, hn⟩ := hbefore hopens
    rw [hn]
    rfl
  · rintro last ⟨kind, rfl, hkind⟩
    cases kind with
    | name n => simp [OpensColumns]
    | _ => cases hkind

theorem LeadsAt.peek_bind {f : Token.Kind → Rule σ β}
    (h : (f (current s).kind).LeadsAt before after s) : (peek >>= f).LeadsAt before after s := by
  unfold LeadsAt
  rw [run_bind_ok (run_peek s)]
  exact h

theorem LeadsAt.bind {p : Rule σ α} {f : α → Rule σ β} {between : Option Token.Kind → Prop}
    (hp : p.LeadsAt before between s)
    (hf : ∀ a t last, p.run s = (.ok a, t) → between last → (f a).LeadsAt last after t) :
    (p >>= f).LeadsAt before after s := by
  rcases hp with ⟨w, a, t, hrun, hreads, hend, hlast⟩ | ⟨w, fault, t, hrun, hreads, hend, hfits⟩
  · have hjoin : ∀ v : List Token.Kind,
        v.getLast?.or (w.getLast?.or before) = (w ++ v).getLast?.or before := by
      intro v
      rw [List.getLast?_append, Option.or_assoc]
    unfold LeadsAt
    rw [run_bind_ok hrun]
    rcases hf a t _ hrun hlast with ⟨v, b, u, hrun', hreads', hend', hlast'⟩ |
      ⟨v, fault, u, hrun', hreads', hend', hfits⟩
    · rw [hjoin] at hlast'
      exact Or.inl ⟨w ++ v, b, u, hrun', reads_append.mpr ⟨t, hreads, hreads'⟩,
        by simp [hend, hend'], hlast'⟩
    · rw [hjoin] at hfits
      exact Or.inr ⟨w ++ v, fault, u, hrun', reads_append.mpr ⟨t, hreads, hreads'⟩,
        by simp [hend, hend'], hfits⟩
  · exact Or.inr ⟨w, fault, t, run_bind_error hrun, hreads, hend, hfits⟩

theorem LeadsAt.skip_bind {f : Unit → Rule σ β} (hend : (current s).kind ≠ .endOfInput)
    (h : (f ()).LeadsAt (some (current s).kind) after (advance s)) :
    (skip >>= f).LeadsAt before after s := by
  have hskip : (skip : Rule σ Unit).LeadsAt before (· = some (current s).kind) s :=
    Or.inl ⟨[(current s).kind], (), advance s, rfl, ⟨rfl, rfl⟩, by simpa using hend.symm, rfl⟩
  refine hskip.bind ?_
  rintro _ t last hrun rfl
  cases hrun
  exact h

theorem leadsAt_repeatAfter {opens : Token.Kind → Option β} {hend : opens .endOfInput = none}
    {body : β → Rule σ α}
    (hbody : ∀ kind b t, opens kind = some b →
      (body b).LeadsAt (some kind) (¬ OpensColumns ·) t)
    (hbefore : ¬ OpensColumns before) (s : σ) :
    (repeatAfter opens body hend).LeadsAt before (¬ OpensColumns ·) s := by
  induction hn : remaining s using Nat.strongRecOn generalizing s before with
  | _ n ih =>
    rw [repeatAfter_eq opens body hend]
    refine LeadsAt.peek_bind ?_
    cases hopen : opens (current s).kind with
    | none => exact leadsAt_pure hbefore
    | some b =>
      have hne : (current s).kind ≠ .endOfInput := by
        intro he
        rw [he, hend] at hopen
        cases hopen
      have hlt := remaining_advance_of_ne_end hne
      refine LeadsAt.skip_bind hne ((hbody _ b (advance s) hopen).bind ?_)
      intro a t last hrun hlast
      have hle := remaining_run_le hrun
      refine (ih (remaining t) (by omega) hlast t rfl).bind ?_
      intro as u final _ hfinal
      exact leadsAt_pure hfinal

end Rule

namespace Grammar

open Rule

/-! ## Conditions -/

theorem not_opensColumns_value (v : Value) : ¬ OpensColumns (some v.kind) := by
  cases v <;> simp [OpensColumns, Value.kind]

theorem not_opensColumns_operator (op : Operator) : ¬ OpensColumns (some op.kind) := by
  cases op <;> simp [OpensColumns, Operator.kind]

theorem not_opensColumns_mark (m : Mark) : ¬ OpensColumns (some (.mark m)) := by
  simp [OpensColumns]

theorem leadsAt_binary (least : Nat) (s : σ) {before : Option Token.Kind}
    (hbefore : ¬ OpensColumns before) :
    (binary least : Rule σ Condition).LeadsAt before (¬ OpensColumns ·) s := by
  refine (condition_induct
    (O := fun s : σ => ∀ before, ¬ OpensColumns before →
      (operand : Rule σ Condition).LeadsAt before (¬ OpensColumns ·) s)
    (B := fun m (s : σ) => ∀ before, ¬ OpensColumns before →
      (binary m : Rule σ Condition).LeadsAt before (¬ OpensColumns ·) s)
    (C := fun m left (s : σ) => ∀ before, ¬ OpensColumns before →
      (climb m left : Rule σ Condition).LeadsAt before (¬ OpensColumns ·) s)
    ?_ ?_ ?_).2.1 least s before hbefore
  · intro s ih before hbefore
    rw [operand_eq]
    refine LeadsAt.peek_bind ?_
    cases hvalue : Value.ofKind? (current s).kind with
    | some v =>
      have hkind := (Value.ofKind?_eq_some_iff _ _).mp hvalue
      refine LeadsAt.skip_bind ?_ (leadsAt_pure ?_)
      · rw [hkind]
        cases v <;> simp [Value.kind]
      · rw [hkind]
        exact not_opensColumns_value v
    | none =>
      simp only
      split
      · rename_i hopen
        refine LeadsAt.skip_bind (by simp [hopen]) ?_
        rw [hopen]
        refine (ih (advance s) (remaining_advance_of_lparen hopen) 0 _
          (not_opensColumns_mark .lparen)).bind ?_
        intro inner t last _ hlast
        refine (leadsAt_takeKind (by simp) hlast).bind ?_
        rintro _ u _ - rfl
        exact leadsAt_pure (not_opensColumns_mark .rparen)
      · exact leadsAt_reject (Fault.fits_unexpected hbefore _ _)
  · intro least left s ih before hbefore
    rw [climb_eq]
    refine LeadsAt.peek_bind ?_
    cases hop : Operator.ofKind? (current s).kind with
    | none => exact leadsAt_pure hbefore
    | some op =>
      have hkind := (Operator.ofKind?_eq_some_iff _ _).mp hop
      have hlt := remaining_advance_of_operator hop
      simp only
      split
      · exact leadsAt_pure hbefore
      · refine LeadsAt.skip_bind ?_ ?_
        · rw [hkind]
          cases op <;> simp [Operator.kind]
        · rw [hkind]
          refine ((ih (advance s) hlt).1 _ _ (not_opensColumns_operator op)).bind ?_
          intro right t last hrun hlast
          have hle := remaining_run_le hrun
          exact (ih t (by omega)).2 _ _ _ hlast
  · intro least s hoperand ih before hbefore
    rw [binary_eq]
    refine (hoperand before hbefore).bind ?_
    intro left t last hrun hlast
    exact ih t (remaining_run_le hrun) left last hlast

/-! ## Columns and clauses -/

/-- A column stands after a comma, or it is the first after the keyword. -/
theorem leadsAt_column {before : Option Token.Kind} {s : σ}
    (hbefore : OpensColumns before → Expectation.column.accepts (current s).kind = true) :
    (column : Rule σ Column).LeadsAt before (¬ OpensColumns ·) s := by
  unfold column
  refine LeadsAt.peek_bind ?_
  split
  · rename_i hstar
    refine LeadsAt.skip_bind (by simp [hstar]) (leadsAt_pure ?_)
    rw [hstar]
    exact not_opensColumns_mark .star
  · rename_i hstar
    refine (leadsAt_takeName ?_).bind ?_
    · intro hopens
      rcases (accepts_column _).mp (hbefore hopens) with h | h
      · exact absurd h hstar
      · exact h
    · intro name t last _ hlast
      refine LeadsAt.peek_bind ?_
      split
      · rename_i hopen
        refine LeadsAt.skip_bind (by simp [hopen]) ?_
        rw [hopen]
        refine (leadsAt_takeName (fun h => absurd h (not_opensColumns_mark .lparen))).bind ?_
        intro argument u last _ hlast
        refine (leadsAt_takeKind (by simp) hlast).bind ?_
        rintro _ v _ - rfl
        exact leadsAt_pure (not_opensColumns_mark .rparen)
      · exact leadsAt_pure hlast

theorem leadsAt_columnList {before : Option Token.Kind} (hbefore : OpensColumns before) (s : σ) :
    (columnList : Rule σ (List Column)).LeadsAt before (¬ OpensColumns ·) s := by
  unfold columnList
  refine LeadsAt.peek_bind ?_
  split
  · rename_i haccepts
    refine (leadsAt_column fun _ => haccepts).bind ?_
    intro first t last _ hlast
    have hmore : (moreColumns : Rule σ (List Column)).LeadsAt last (¬ OpensColumns ·) t := by
      refine leadsAt_repeatAfter ?_ hlast t
      intro kind b u hopen
      by_cases hcomma : kind = .mark .comma
      · rw [hcomma]
        exact leadsAt_column fun h => absurd h (not_opensColumns_mark .comma)
      · simp [hcomma] at hopen
    refine hmore.bind ?_
    intro others u final _ hfinal
    exact leadsAt_pure hfinal
  · exact leadsAt_reject (Fault.fits_noColumns hbefore _)

theorem leadsAt_filter {before : Option Token.Kind} (hbefore : ¬ OpensColumns before) (s : σ) :
    (filter : Rule σ (Option Condition)).LeadsAt before (¬ OpensColumns ·) s := by
  unfold filter
  refine LeadsAt.peek_bind ?_
  split
  · rename_i hwhere
    refine LeadsAt.skip_bind (by simp [hwhere]) ?_
    rw [hwhere]
    refine (leadsAt_binary 0 (advance s) (by simp [OpensColumns])).bind ?_
    intro found t last _ hlast
    exact leadsAt_pure hlast
  · exact leadsAt_pure hbefore

theorem leadsAt_clauses {before : Option Token.Kind} (hbefore : ¬ OpensColumns before) (s : σ) :
    (clauses : Rule σ (List Clause)).LeadsAt before (¬ OpensColumns ·) s := by
  refine leadsAt_repeatAfter ?_ hbefore s
  intro kind opener t hopen
  unfold Opener.ofKind? at hopen
  split at hopen
  · cases hopen
    refine (leadsAt_take rfl (by simp [OpensColumns])).bind ?_
    rintro count u _ - ⟨k, rfl, hk⟩
    refine leadsAt_pure ?_
    cases k with
    | number n => simp [OpensColumns]
    | _ => cases hk
  · cases hopen
    refine (leadsAt_takeKind (by simp) (by simp [OpensColumns])).bind ?_
    rintro _ u _ - rfl
    refine (leadsAt_columnList (Or.inr rfl) u).bind ?_
    intro columns v last _ hlast
    exact leadsAt_pure hlast
  · cases hopen

/-! ## Statements -/

theorem leadsAt_statement (s : σ) :
    (statement : Rule σ Statement).LeadsAt none (¬ OpensColumns ·) s := by
  unfold statement
  refine (leadsAt_takeKind (by simp) (by simp [OpensColumns])).bind ?_
  rintro _ t _ - rfl
  refine (leadsAt_columnList (Or.inl rfl) t).bind ?_
  intro columns t last _ hlast
  refine (leadsAt_takeKind (by simp) hlast).bind ?_
  rintro _ t _ - rfl
  refine (leadsAt_takeName (by simp [OpensColumns])).bind ?_
  intro table t last _ hlast
  refine (leadsAt_filter hlast t).bind ?_
  intro condition t last _ hlast
  refine (leadsAt_clauses hlast t).bind ?_
  intro clauses t last _ hlast
  exact leadsAt_pure hlast

/-- A query says that a list of columns is missing exactly right after a keyword
that opens one. -/
theorem fits_of_query {s t : σ} {fault : Fault} (hrun : query.run s = (.error fault, t)) :
    ∃ w, Reads s w t ∧ .endOfInput ∉ w ∧ fault.Fits w.getLast? := by
  unfold query at hrun
  rcases leadsAt_statement s with ⟨w, st, u, hread, hreads, hend, hlast⟩ |
    ⟨w, other, u, hread, hreads, hend, hfits⟩
  · rw [run_bind_ok hread] at hrun
    by_cases hlastToken : (current u).kind = .endOfInput
    · rw [run_bind_ok (run_takeKind_ok hlastToken), run_pure] at hrun
      cases hrun
    · rw [run_bind_error (run_takeKind_error hlastToken)] at hrun
      cases hrun
      rw [Option.or_none] at hlast
      exact ⟨w, hreads, hend, Fault.fits_unexpected hlast _ _⟩
  · rw [run_bind_error hread] at hrun
    cases hrun
    rw [Option.or_none] at hfits
    exact ⟨w, hreads, hend, hfits⟩

end Grammar

end SelectQuery
