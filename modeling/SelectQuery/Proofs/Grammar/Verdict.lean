-- Where reading a query stops: at the first token with which no sentence goes
-- on, or at the end of the query. What is read up to there is the statement of
-- the one sentence with the tokens, or a fault at that token.
import SelectQuery.Proofs.Grammar.Completeness

namespace SelectQuery

variable {σ : Type} [TokenSource σ]

/-! ## Lists that end as queries do -/

/-- The end of the query comes last and only there. -/
def Ends (kinds : List Token.Kind) : Prop :=
  ∃ front, kinds = front ++ [.endOfInput] ∧ .endOfInput ∉ front

theorem Sentence.ends (d : Sentence) : Ends d.kinds :=
  ⟨d.body, rfl, d.body_ne_end⟩

/-- What comes before a further token of such a list has no end in it. -/
theorem Ends.not_mem {v w : List Token.Kind} {kind : Token.Kind} (h : Ends (v ++ kind :: w)) :
    Token.Kind.endOfInput ∉ v := by
  obtain ⟨front, heq, hfront⟩ := h
  intro hmem
  rcases List.append_eq_append_iff.mp heq with ⟨m, rfl, -⟩ | ⟨m, rfl, hm⟩
  · exact hfront (List.mem_append_left m hmem)
  · cases m with
    | nil =>
      rw [List.append_nil] at hmem
      exact hfront hmem
    | cons k m => simp at hm

theorem Ends.eq_of_prefix {v w : List Token.Kind} (hv : Ends v) (hw : Ends w) (h : v <+: w) :
    v = w := by
  obtain ⟨m, rfl⟩ := h
  cases m with
  | nil => simp
  | cons kind m =>
    obtain ⟨front, rfl, -⟩ := hv
    exact absurd (by simp) hw.not_mem

theorem Ends.ne_nil {v : List Token.Kind} (h : Ends v) : v ≠ [] := by
  obtain ⟨front, rfl, -⟩ := h
  simp

/-- Of what a source shows, the shorter part is the start of the longer one. -/
theorem prefix_of_reads {s t u : σ} {v w : List Token.Kind} (hv : Reads s v t)
    (hw : Reads s w u) : v <+: w ∨ w <+: v := by
  induction v generalizing s w with
  | nil => exact Or.inl (List.nil_prefix)
  | cons kind v ih =>
    cases w with
    | nil => exact Or.inr (List.nil_prefix)
    | cons kind' w =>
      obtain ⟨rfl, hv⟩ := hv
      obtain ⟨rfl, hw⟩ := hw
      rcases ih hv hw with h | h
      · exact Or.inl (List.prefix_cons_inj _ |>.mpr h)
      · exact Or.inr (List.prefix_cons_inj _ |>.mpr h)

/-! ## The place where reading stops -/

/-- Reading stops at token `k`: it is the first with which no sentence goes on,
or the tokens are those of a sentence and it is their end. -/
structure StopsAt (kinds : List Token.Kind) (k : Nat) : Prop where
  lt : k < kinds.length
  viable : ∀ j < k, Viable (kinds.take (j + 1))
  here : ¬ Viable (kinds.take (k + 1)) ∨ Derivable kinds ∧ k + 1 = kinds.length

theorem StopsAt.le {kinds : List Token.Kind} {j k : Nat} (hj : StopsAt kinds j)
    (hk : StopsAt kinds k) : k ≤ j := by
  by_contra hlt
  have hviable := hk.viable j (by omega)
  rcases hj.here with h | ⟨-, hlast⟩
  · exact h hviable
  · have := hk.lt
    omega

theorem StopsAt.unique {kinds : List Token.Kind} {j k : Nat} (hj : StopsAt kinds j)
    (hk : StopsAt kinds k) : j = k :=
  Nat.le_antisymm (hk.le hj) (hj.le hk)

theorem Sentence.stopsAt (d : Sentence) : StopsAt d.kinds (d.kinds.length - 1) where
  lt := by
    have := List.length_pos_iff.mpr d.ends.ne_nil
    omega
  viable := fun j _ => ⟨d, List.take_prefix _ _⟩
  here := by
    have := List.length_pos_iff.mpr d.ends.ne_nil
    exact Or.inr ⟨⟨d, rfl⟩, by omega⟩

/-! ## Counting the steps -/

theorem remaining_iterate_le (s : σ) (n : Nat) : remaining (advance^[n] s) ≤ remaining s := by
  induction n generalizing s with
  | zero => exact Nat.le_refl _
  | succ n ih =>
    rw [Function.iterate_succ_apply]
    exact Nat.le_trans (ih (advance s)) (remaining_advance_le s)

/-- Only where the query ends can a source come back to itself. -/
theorem end_of_iterate_eq {s : σ} {n : Nat} (h : advance^[n + 1] s = s) :
    (current s).kind = .endOfInput := by
  by_contra hne
  have hlt := remaining_advance_of_ne_end hne
  have hle := remaining_iterate_le (advance s) n
  rw [← Function.iterate_succ_apply, h] at hle
  omega

theorem end_of_iterate_lt {s : σ} {j k : Nat} (h : advance^[j] s = advance^[k] s) (hlt : j < k) :
    (tokenAt s j).kind = .endOfInput := by
  obtain ⟨n, rfl⟩ := Nat.exists_eq_add_of_lt hlt
  apply end_of_iterate_eq (n := n)
  rw [← Function.iterate_add_apply, h]
  congr 1
  omega

/-- Before the end of the query, one place is reached by one number of steps. -/
theorem steps_unique {s : σ} {j k : Nat} (h : advance^[j] s = advance^[k] s)
    (hends : ∀ i ≤ k, (tokenAt s i).kind ≠ .endOfInput) : j = k := by
  rcases Nat.lt_trichotomy j k with hlt | heq | hlt
  · exact absurd (end_of_iterate_lt h hlt) (hends j (by omega))
  · exact heq
  · exact absurd (end_of_iterate_lt h.symm hlt) (hends k (Nat.le_refl k))

/-! ## Lists of tokens as sources -/

theorem TokenList.reads_tokens (ts us : List Token) (line : Nat) :
    Reads (TokenList.mk (ts ++ us) line) (ts.map Token.kind) (TokenList.mk us line) := by
  induction ts with
  | nil => rfl
  | cons t ts ih => exact ⟨rfl, ih⟩

theorem TokenList.tokenAt_eq (ts : List Token) (line i : Nat) :
    tokenAt (TokenList.mk ts line) i = ts[i]?.getD ⟨.endOfInput, line⟩ := by
  induction i generalizing ts with
  | zero => cases ts <;> rfl
  | succ i ih =>
    unfold tokenAt at ih ⊢
    rw [Function.iterate_succ_apply]
    cases ts with
    | nil =>
      rw [advance_nil, ih]
      simp
    | cons t ts =>
      rw [advance_cons, ih]
      simp

/-! ## The verdict on a source -/

theorem Fault.exists_accepted (fault : Fault) : ∃ kind, fault.accepts kind = true := by
  cases fault with
  | noColumns found => exact ⟨.mark .star, rfl⟩
  | unexpected expected found =>
    cases expected with
    | selectKeyword => exact ⟨.keyword .selectKw, rfl⟩
    | fromKeyword => exact ⟨.keyword .fromKw, rfl⟩
    | tableName => exact ⟨.name "t", rfl⟩
    | column => exact ⟨.mark .star, rfl⟩
    | argument => exact ⟨.name "t", rfl⟩
    | closingParen => exact ⟨.mark .rparen, rfl⟩
    | limitNumber => exact ⟨.number 0, rfl⟩
    | byKeyword => exact ⟨.keyword .byKw, rfl⟩
    | value => exact ⟨.mark .lparen, rfl⟩
    | endOfInput => exact ⟨.endOfInput, rfl⟩

namespace Grammar

/-- Where a fault stops at the end of the query, the tokens are no sentence. -/
theorem not_viable_at_end {s u : σ} {fault : Fault} {w : List Token.Kind}
    (hrun : query.run s = (.error fault, u)) (hreads : Reads s w u)
    (hnoend : Token.Kind.endOfInput ∉ w) (hend : (current u).kind = .endOfInput) :
    ¬ Viable (w ++ [.endOfInput]) := by
  rintro ⟨d, hd⟩
  have heq : w ++ [.endOfInput] = d.kinds := Ends.eq_of_prefix ⟨w, rfl, hnoend⟩ d.ends hd
  have hall : Reads s d.kinds (advance u) := by
    rw [← heq]
    exact reads_append.mpr ⟨u, hreads, hend, rfl⟩
  obtain ⟨d', -, -, hok⟩ := run_query d hall
  rw [hrun] at hok
  cases (Prod.mk.inj hok).1

/-- Where a fault stops before the end of the query, no sentence goes on. The
rule would read such a sentence from a source that shows it, and it cannot tell
the two sources apart. -/
theorem not_viable_before_end {s : σ} {fault : Fault} {k : Nat} {w : List Token.Kind}
    (hrun : query.run s = (.error fault, advance^[k] s))
    (hreads : Reads s w (advance^[k] s)) (hk : w.length = k)
    (hends : ∀ i ≤ k, (tokenAt s i).kind ≠ .endOfInput) :
    ¬ Viable (w ++ [(tokenAt s k).kind]) := by
  rintro ⟨d, more, hd⟩
  have hsame : (query : Rule σ Statement).AgreesAt (query : Rule TokenList Statement) s :=
    agreesAt_query s
  obtain ⟨j, hj, hagrees⟩ := hsame
  rw [hrun] at hj hagrees
  obtain rfl : j = k := steps_unique hj.symm hends
  have hw := (reads_iff.mp hreads).2
  -- The same tokens with the rest of the sentence after them.
  let shown := (List.range (j + 1)).map (tokenAt s)
  let others : List Token := more.map fun kind => ⟨kind, 1⟩
  have hkinds : shown.map Token.kind = w ++ [(tokenAt s j).kind] := by
    rw [List.map_map, List.range_succ, List.map_append]
    congr 1
    apply List.ext_getElem
    · simp [hk]
    · intro i _ hi
      simp [hw i hi]
  have hread : Reads (TokenList.mk (shown ++ others) 1) d.kinds (TokenList.mk [] 1) := by
    have h := TokenList.reads_tokens (shown ++ others) [] 1
    rw [List.append_nil, List.map_append, hkinds] at h
    rw [← hd]
    simpa [others, Function.comp_def] using h
  obtain ⟨d', -, -, hok⟩ := run_query d hread
  have herror := hagrees (TokenList.mk (shown ++ others) 1) ?_
  · rw [hok] at herror
    cases (Prod.mk.inj herror).1
  · intro i hi
    rw [TokenList.tokenAt_eq, List.getElem?_append_left (by simp [shown]; omega)]
    simp [shown, Nat.lt_succ_of_le hi]

theorem not_viable_of_fault {s : σ} {fault : Fault} {w : List Token.Kind}
    (hrun : query.run s = (.error fault, advance^[w.length] s))
    (hreads : Reads s w (advance^[w.length] s)) (hnoend : Token.Kind.endOfInput ∉ w) :
    ¬ Viable (w ++ [(tokenAt s w.length).kind]) := by
  by_cases hlast : (tokenAt s w.length).kind = .endOfInput
  · rw [hlast]
    exact not_viable_at_end hrun hreads hnoend hlast
  · apply not_viable_before_end hrun hreads rfl
    intro i hi
    by_cases hlt : i < w.length
    · rw [(reads_iff.mp hreads).2 i hlt]
      intro he
      exact hnoend (he ▸ List.getElem_mem hlt)
    · obtain rfl : i = w.length := by omega
      exact hlast

/-- A fault on a source that shows all tokens of a query stands at the first token
with which no sentence goes on. It is right there: with all it asks for the tokens
before it go on to a sentence. -/
theorem fault_cases {s t u : σ} {kinds : List Token.Kind} {fault : Fault}
    (hreads : Reads s kinds t) (hends : Ends kinds) (hrun : query.run s = (.error fault, u)) :
    ∃ k, StopsAt kinds k ∧ ¬ Viable (kinds.take (k + 1)) ∧ u = advance^[k] s ∧
      fault.Right (tokenAt s k) fun more => Derivable (kinds.take k ++ more) := by
  rcases meetsAt_query s with ⟨w, st, u', hok, -⟩ | ⟨w, fault', u', herror, hw, hright⟩
  · rw [hrun] at hok
    cases hok
  · rw [hrun] at herror
    cases herror
    obtain ⟨kind, hkind⟩ := fault.exists_accepted
    obtain ⟨more, _, _, d, -, hd, -⟩ := hright.viable kind hkind
    have hnoend : Token.Kind.endOfInput ∉ w := (hd ▸ d.ends).not_mem
    obtain ⟨next, rest, rfl⟩ : ∃ next rest, kinds = w ++ next :: rest := by
      obtain ⟨front, rfl, -⟩ := hends
      rcases prefix_of_reads hw hreads with ⟨m, hm⟩ | ⟨m, rfl⟩
      · cases m with
        | nil =>
          rw [List.append_nil] at hm
          simp [hm] at hnoend
        | cons next rest => exact ⟨next, rest, hm.symm⟩
      · simp at hnoend
    obtain rfl : u = advance^[w.length] s := (reads_iff.mp hw).1
    have hfound : (tokenAt s w.length).kind = next := by
      simpa using (reads_iff.mp hreads).2 w.length (by simp)
    have hviable : ¬ Viable ((w ++ next :: rest).take (w.length + 1)) := by
      rw [List.take_length_add_append]
      exact hfound ▸ not_viable_of_fault hrun hw hnoend
    refine ⟨w.length, ⟨by simp, ?_, Or.inl hviable⟩, hviable, rfl, hright.found_eq,
      hright.refused, ?_⟩
    · intro j hj
      refine ⟨d, ?_⟩
      rw [hd, List.take_append_of_le_length (by omega)]
      exact (List.take_prefix _ _).trans (List.prefix_append _ _)
    · intro kind hkind
      obtain ⟨more, _, _, d, -, hd, -⟩ := hright.viable kind hkind
      exact ⟨more, d, by rw [List.take_left]; exact hd⟩

/-- A source that shows all tokens of a query is read as the sentence with these
tokens, or refused at the place where reading stops. -/
theorem query_cases {s t : σ} {kinds : List Token.Kind} (hreads : Reads s kinds t)
    (hends : Ends kinds) :
    ∃ k, StopsAt kinds k ∧
      ((∃ d : Sentence, d.Respects ∧ d.kinds = kinds ∧ query.run s = (.ok d.statement, t)) ∨
        ¬ Derivable kinds ∧
          ∃ fault, query.run s = (.error fault, advance^[k] s) ∧ fault.found = tokenAt s k) := by
  rcases meetsAt_query s with ⟨w, st, u, hrun, hw, d, hrespects, rfl, rfl⟩ |
    ⟨w, fault, u, hrun, -⟩
  · have heq : d.kinds = kinds := by
      rcases prefix_of_reads hw hreads with h | h
      · exact d.ends.eq_of_prefix hends h
      · exact (hends.eq_of_prefix d.ends h).symm
    subst heq
    obtain rfl : u = t := (reads_iff.mp hw).1.trans (reads_iff.mp hreads).1.symm
    exact ⟨_, d.stopsAt, Or.inl ⟨d, hrespects, rfl, hrun⟩⟩
  · obtain ⟨k, hstops, hnot, rfl, hright⟩ := fault_cases hreads hends hrun
    refine ⟨k, hstops, Or.inr ⟨?_, fault, hrun, hright.found_eq⟩⟩
    rintro ⟨d, hd⟩
    exact hnot ⟨d, hd ▸ List.take_prefix _ _⟩

end Grammar

end SelectQuery
