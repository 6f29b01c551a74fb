-- The rules read all that can be written. A condition is read whole however
-- its operators are mixed, and a sentence gives its statement. So every
-- sentence can be built in one way that respects the binding of operators,
-- and in one way only.
import SelectQuery.Proofs.Grammar.Soundness

namespace SelectQuery

variable {σ : Type} [TokenSource σ] {α β : Type}

/-- Two ways from one place to another pass the same tokens, as long as the
query does not end on them. -/
theorem reads_unique {s t : σ} {v w : List Token.Kind} (hv : Reads s v t) (hw : Reads s w t)
    (hvend : Token.Kind.endOfInput ∉ v) (hwend : Token.Kind.endOfInput ∉ w) : v = w := by
  induction v generalizing s w with
  | nil =>
    obtain rfl : t = s := hv
    have := remaining_of_reads hw hwend
    exact (List.length_eq_zero_iff.mp (by omega)).symm
  | cons kind v ih =>
    cases w with
    | nil =>
      obtain rfl : t = s := hw
      have := remaining_of_reads hv hvend
      simp only [List.length_cons] at this
      omega
    | cons kind' w =>
      simp only [List.mem_cons, not_or] at hvend hwend
      obtain ⟨rfl, hv⟩ := hv
      obtain ⟨rfl, hw⟩ := hw
      rw [ih hv hw hvend.2 hwend.2]

/-! ## Lists of kinds as sources -/

/-- A source that shows tokens of the given kinds. -/
def TokenList.ofKinds (kinds : List Token.Kind) : TokenList :=
  { tokens := kinds.map fun kind => ⟨kind, 1⟩, endLine := 1 }

theorem TokenList.ofKinds_inj {v w : List Token.Kind} (h : ofKinds v = ofKinds w) : v = w := by
  have hkinds := congrArg (fun list => list.tokens.map Token.kind) h
  simpa [ofKinds, Function.comp_def] using hkinds

theorem TokenList.reads_ofKinds (v w : List Token.Kind) :
    Reads (ofKinds (v ++ w)) v (ofKinds w) := by
  induction v with
  | nil => rfl
  | cons kind v ih => exact ⟨rfl, ih⟩

theorem TokenList.kind_ofKinds {w : List Token.Kind} {kind : Token.Kind}
    (h : w.head? = some kind) : (current (ofKinds w)).kind = kind := by
  cases w with
  | nil => cases h
  | cons k w =>
    cases h
    rfl

namespace Grammar

/-! ## Single steps of conditions -/

theorem run_operand_value {s : σ} {v : Value} (h : (current s).kind = v.kind) :
    operand.run s = (.ok (.value v), advance s) := by
  rw [operand_eq, Rule.run_bind_ok (Rule.run_peek s), (Value.ofKind?_eq_some_iff _ _).mpr h]
  rfl

theorem run_operand_group {s t : σ} {inner : Condition} (hopen : (current s).kind = .mark .lparen)
    (hinner : (binary 0).run (advance s) = (.ok inner, t))
    (hclose : (current t).kind = .mark .rparen) : operand.run s = (.ok inner, advance t) := by
  rw [operand_eq, Rule.run_bind_ok (Rule.run_peek s), hopen]
  simp only [Value.ofKind?, if_true]
  rw [Rule.run_bind_ok (Rule.run_skip s), condition, Rule.run_bind_ok hinner,
    Rule.run_bind_ok (Rule.run_takeKind_ok hclose), Rule.run_pure]

theorem run_climb_stop {s : σ} {least : Nat} {left : Condition}
    (h : ∀ op, Operator.ofKind? (current s).kind = some op → op.precedence < least) :
    (climb least left).run s = (.ok left, s) := by
  rw [climb_eq, Rule.run_bind_ok (Rule.run_peek s)]
  cases hop : Operator.ofKind? (current s).kind with
  | none => rfl
  | some op =>
    simp only [if_pos (h op hop)]
    rfl

theorem run_climb_next {s : σ} {least : Nat} {op : Operator} (left : Condition)
    (hop : (current s).kind = op.kind) (hle : least ≤ op.precedence) :
    (climb least left).run s =
      (binary (op.precedence + 1) >>= fun right => climb least (.binary op left right)).run
        (advance s) := by
  rw [climb_eq, Rule.run_bind_ok (Rule.run_peek s), (Operator.ofKind?_eq_some_iff _ _).mpr hop]
  simp only [if_neg (Nat.not_lt_of_le hle)]
  rw [Rule.run_bind_ok (Rule.run_skip s)]

theorem run_climb_step {s t : σ} {least : Nat} {left right : Condition} {op : Operator}
    (hop : (current s).kind = op.kind) (hle : ¬ op.precedence < least)
    (hright : (binary (op.precedence + 1)).run (advance s) = (.ok right, t)) :
    (climb least left).run s = (climb least (.binary op left right)).run t := by
  rw [run_climb_next left hop (Nat.le_of_not_lt hle), Rule.run_bind_ok hright]

theorem run_binary {s t : σ} {least : Nat} {left : Condition}
    (h : operand.run s = (.ok left, t)) : (binary least).run s = (climb least left).run t := by
  rw [binary_eq, Rule.run_bind_ok h]

/-! ## Chains of operands -/

/-- The first operand of a phrase. -/
def firstOperand : Phrase → Phrase
  | .value v => .value v
  | .group inner => .group inner
  | .binary _ left _ => firstOperand left

/-- The open operators of a phrase, each with the operand after it. -/
def chain : Phrase → List (Operator × Phrase)
  | .value _ => []
  | .group _ => []
  | .binary op left right => chain left ++ (op, firstOperand right) :: chain right

/-- The tokens of a chain. -/
def chainKinds (links : List (Operator × Phrase)) : List Token.Kind :=
  links.flatMap fun link => link.1.kind :: link.2.kinds

theorem kinds_eq_chain (p : Phrase) : p.kinds = (firstOperand p).kinds ++ chainKinds (chain p) := by
  induction p with
  | value v => simp [firstOperand, chain, chainKinds]
  | group inner _ => simp [firstOperand, chain, chainKinds]
  | binary op left right ihl ihr =>
    rw [Phrase.kinds, ihl, ihr]
    simp [firstOperand, chain, chainKinds]

/-- Whatever reads as this phrase is read as an operand. -/
def IsOperand (σ : Type) [TokenSource σ] (p : Phrase) : Prop :=
  ∀ s t : σ, Reads s p.kinds t → ∃ c, operand.run s = (.ok c, t)

/-- A chain is read up to the first operator that binds too loosely. -/
theorem run_climb_chain (links : List (Operator × Phrase))
    (hlinks : ∀ link ∈ links, IsOperand σ link.2) (least : Nat) (left : Condition) (s t : σ)
    (hreads : Reads s (chainKinds links) t) (hstop : Operator.ofKind? (current t).kind = none) :
    ∃ c u rest, (climb least left).run s = (.ok c, u) ∧ rest <:+ links ∧
      Reads u (chainKinds rest) t ∧ ∀ link ∈ rest.head?, link.1.precedence < least := by
  -- Right operands are chains too, so the induction is on the length.
  induction hn : links.length using Nat.strongRecOn generalizing links least left s with
  | _ n ih =>
    cases links with
    | nil =>
      obtain rfl : t = s := hreads
      refine ⟨left, t, [], run_climb_stop ?_, List.suffix_refl _, rfl, by simp⟩
      intro op hop
      rw [hstop] at hop
      cases hop
    | cons link links =>
      obtain ⟨op, o⟩ := link
      obtain ⟨hop, hrest⟩ : (current s).kind = op.kind ∧
          Reads (advance s) (o.kinds ++ chainKinds links) t := hreads
      by_cases hlt : op.precedence < least
      · refine ⟨left, s, (op, o) :: links, run_climb_stop ?_, List.suffix_refl _, ⟨hop, hrest⟩,
          by simpa using hlt⟩
        intro op' hop'
        rw [Operator.kind_inj (hop.symm.trans ((Operator.ofKind?_eq_some_iff _ _).mp hop'))] at hlt
        exact hlt
      · obtain ⟨u, hoperand, hchain⟩ := reads_append.mp hrest
        obtain ⟨c, hc⟩ := hlinks (op, o) (by simp) _ _ hoperand
        have htail : ∀ link ∈ links, IsOperand σ link.2 :=
          fun link hmem => hlinks link (by simp [hmem])
        obtain ⟨right, v, rest, hright, hsuffix, hreads', -⟩ :=
          ih links.length (by simp at hn; omega) links htail (op.precedence + 1) c u hchain rfl
        have hbinary : (binary (op.precedence + 1)).run (advance s) = (.ok right, v) := by
          rw [run_binary hc, hright]
        have hshort := hsuffix.length_le
        obtain ⟨c', x, rest', hrun, hsuffix', hreads'', hhead⟩ :=
          ih rest.length (by simp at hn; omega) rest
            (fun link hmem => htail link (hsuffix.subset hmem)) least (.binary op left right) v
            hreads' rfl
        refine ⟨c', x, rest', ?_, ?_, hreads'', hhead⟩
        · rw [run_climb_step hop hlt hbinary, hrun]
        · exact (hsuffix'.trans hsuffix).trans (List.suffix_cons _ _)

theorem exists_run_of_chain {p : Phrase} (hfirst : IsOperand σ (firstOperand p))
    (hchain : ∀ link ∈ chain p, IsOperand σ link.2) {s t : σ} (hreads : Reads s p.kinds t)
    (hstop : Operator.ofKind? (current t).kind = none) : ∃ c, (binary 0).run s = (.ok c, t) := by
  rw [kinds_eq_chain] at hreads
  obtain ⟨u, hoperand, hlinks⟩ := reads_append.mp hreads
  obtain ⟨left, hleft⟩ := hfirst s u hoperand
  obtain ⟨c, v, rest, hrun, -, hrest, hhead⟩ :=
    run_climb_chain (chain p) hchain 0 left u t hlinks hstop
  cases rest with
  | nil =>
    obtain rfl : t = v := hrest
    exact ⟨c, by rw [run_binary hleft, hrun]⟩
  | cons link rest => exact absurd (hhead link (by simp)) (by omega)

/-- All operands of a phrase are read as operands, those in groups too. -/
theorem isOperand_chain (p : Phrase) :
    IsOperand σ (firstOperand p) ∧ ∀ link ∈ chain p, IsOperand σ link.2 := by
  induction p with
  | value v =>
    refine ⟨?_, by simp [chain]⟩
    rintro s t ⟨hkind, rfl⟩
    exact ⟨.value v, run_operand_value hkind⟩
  | group inner ih =>
    refine ⟨?_, by simp [chain]⟩
    rintro s t ⟨hopen, hrest⟩
    obtain ⟨u, hinner, hclose, rfl⟩ := reads_append.mp hrest
    have hstop : Operator.ofKind? (current u).kind = none := by
      rw [hclose]
      rfl
    obtain ⟨c, hc⟩ := exists_run_of_chain ih.1 ih.2 hinner hstop
    exact ⟨c, run_operand_group hopen hc hclose⟩
  | binary op left right ihl ihr =>
    refine ⟨ihl.1, ?_⟩
    intro link hmem
    rcases List.mem_append.mp hmem with hmem | hmem
    · exact ihl.2 link hmem
    · rcases List.mem_cons.mp hmem with rfl | hmem
      · exact ihr.1
      · exact ihr.2 link hmem

/-- Whatever is written as a condition is read as one, by the phrase with its
tokens that respects the binding of operators. -/
theorem run_condition (p : Phrase) {s t : σ} (hreads : Reads s p.kinds t)
    (hstop : Operator.ofKind? (current t).kind = none) :
    ∃ q : Phrase, q.Respects ∧ q.kinds = p.kinds ∧ (binary 0).run s = (.ok q.condition, t) := by
  obtain ⟨c, hc⟩ :=
    exists_run_of_chain (isOperand_chain p).1 (isOperand_chain p).2 hreads hstop
  rcases meetsAt_binary 0 s with ⟨w, c', t', hrun, hw, q, rfl, rfl, hrespects, -⟩ |
    ⟨w, fault, t', hrun, -⟩
  · rw [hc] at hrun
    cases hrun
    exact ⟨q, hrespects, reads_unique hw hreads q.kinds_ne_end p.kinds_ne_end, hc⟩
  · rw [hc] at hrun
    cases hrun

/-! ## Columns and clauses -/

/-- A kind of token that goes on no column list. -/
def EndsColumns (kind : Token.Kind) : Prop :=
  kind ≠ .mark .comma ∧ kind ≠ .mark .lparen

/-- Items after one another are all read, if each is read before another and
before what follows. -/
theorem run_repeatAfter {opens : Token.Kind → Option β} {hend : opens .endOfInput = none}
    {body : β → Rule σ α} {f : α → List Token.Kind} {P : α → Prop} {F : Token.Kind → Prop}
    (hopens : ∀ kind b, opens kind = some b → F kind)
    (hbody : ∀ a, P a → ∃ kind b w, f a = kind :: w ∧ opens kind = some b ∧
      ∀ s t : σ, Reads s w t → F (current t).kind → (body b).run s = (.ok a, t))
    {as : List α} (hgood : ∀ a ∈ as, P a) {s t : σ} (hreads : Reads s (as.flatMap f) t)
    (hstop : opens (current t).kind = none) (hfollow : F (current t).kind) :
    (Rule.repeatAfter opens body hend).run s = (.ok as, t) := by
  induction as generalizing s with
  | nil =>
    obtain rfl : t = s := hreads
    rw [Rule.repeatAfter_eq, Rule.run_bind_ok (Rule.run_peek t), hstop]
    rfl
  | cons a as ih =>
    obtain ⟨kind, b, w, hitem, hopen, hrun⟩ := hbody a (hgood a (by simp))
    rw [List.flatMap_cons, hitem] at hreads
    obtain ⟨hkind, hrest⟩ : (current s).kind = kind ∧
      Reads (advance s) (w ++ as.flatMap f) t := hreads
    obtain ⟨u, hw, has⟩ := reads_append.mp hrest
    -- After the item comes the next one, or what follows all of them.
    have hnext : F (current u).kind := by
      cases as with
      | nil =>
        obtain rfl : t = u := has
        exact hfollow
      | cons a' as =>
        obtain ⟨kind', b', w', hitem', hopen', -⟩ := hbody a' (hgood a' (by simp))
        rw [List.flatMap_cons, hitem'] at has
        rw [has.1]
        exact hopens kind' b' hopen'
    have htail := ih (fun x hx => hgood x (by simp [hx])) has
    rw [Rule.repeatAfter_eq, Rule.run_bind_ok (Rule.run_peek s), hkind, hopen]
    simp only
    rw [Rule.run_bind_ok (Rule.run_skip s), Rule.run_bind_ok (hrun _ _ hw hnext),
      Rule.run_bind_ok htail, Rule.run_pure]

theorem run_column {c : Column} {s t : σ} (hreads : Reads s c.kinds t)
    (hnext : (current t).kind ≠ .mark .lparen) : column.run s = (.ok c, t) := by
  unfold column
  rw [Rule.run_bind_ok (Rule.run_peek s)]
  cases c with
  | star =>
    obtain ⟨hstar, rfl⟩ := hreads
    rw [if_pos hstar]
    rfl
  | name n =>
    obtain ⟨hname, rfl⟩ := hreads
    rw [if_neg (by simp [hname]), Rule.run_bind_ok (Rule.run_takeName_ok hname),
      Rule.run_bind_ok (Rule.run_peek _), if_neg hnext, Rule.run_pure]
  | call function argument =>
    obtain ⟨hname, hopen, hargument, hclose, rfl⟩ := hreads
    rw [if_neg (by simp [hname]), Rule.run_bind_ok (Rule.run_takeName_ok hname),
      Rule.run_bind_ok (Rule.run_peek _), if_pos hopen, Rule.run_bind_ok (Rule.run_skip _),
      Rule.run_bind_ok (Rule.run_takeName_ok hargument),
      Rule.run_bind_ok (Rule.run_takeKind_ok hclose),
      Rule.run_pure]

theorem run_columnList {cs : List Column} (hne : cs ≠ []) {s t : σ}
    (hreads : Reads s (Column.listKinds cs) t) (hnext : EndsColumns (current t).kind) :
    columnList.run s = (.ok cs, t) := by
  cases cs with
  | nil => exact absurd rfl hne
  | cons first others =>
    obtain ⟨u, hfirst, hothers⟩ := reads_append.mp hreads
    have hmore : moreColumns.run u = (.ok others, t) := by
      refine run_repeatAfter (f := Column.kindsAfterComma) (P := fun _ => True)
        (F := fun kind => kind ≠ .mark .lparen) ?_ ?_ (by simp) hothers ?_ hnext.2
      · intro kind b hopen hparen
        rw [hparen] at hopen
        cases hopen
      · intro c _
        exact ⟨.mark .comma, (), c.kinds, rfl, rfl, fun s t h hn => run_column h hn⟩
      · rw [if_neg hnext.1]
    have hbetween : (current u).kind ≠ .mark .lparen := by
      cases others with
      | nil =>
        obtain rfl : t = u := hothers
        exact hnext.2
      | cons c others =>
        rw [hothers.1]
        simp
    have haccepts : Expectation.column.accepts (current s).kind = true := by
      rw [accepts_column]
      cases first with
      | star => exact Or.inl hfirst.1
      | name n => exact Or.inr ⟨n, hfirst.1⟩
      | call function argument => exact Or.inr ⟨function, hfirst.1⟩
    unfold columnList
    rw [Rule.run_bind_ok (Rule.run_peek s), if_pos haccepts,
      Rule.run_bind_ok (run_column hfirst hbetween), Rule.run_bind_ok hmore, Rule.run_pure]

theorem run_clauses {cs : List Clause} (hproper : ∀ c ∈ cs, c.Proper) {s t : σ}
    (hreads : Reads s (cs.flatMap Clause.kinds) t) (hend : (current t).kind = .endOfInput) :
    clauses.run s = (.ok cs, t) := by
  refine run_repeatAfter (f := Clause.kinds) (P := Clause.Proper) (F := EndsColumns)
    ?_ ?_ hproper hreads (by rw [hend]; rfl) (by rw [hend]; simp [EndsColumns])
  · intro kind opener hopen
    constructor
    · rintro rfl
      cases hopen
    · rintro rfl
      cases hopen
  · intro c hc
    cases c with
    | limit count =>
      refine ⟨_, .limit, _, rfl, rfl, ?_⟩
      rintro s t ⟨hnumber, rfl⟩ -
      rw [clauseAfter, Rule.run_bind_ok (Rule.run_take_ok (a := count) (by rw [hnumber])),
        Rule.run_pure]
    | orderBy columns =>
      refine ⟨_, .order, _, rfl, rfl, ?_⟩
      rintro s t ⟨hby, hcolumns⟩ hnext
      rw [clauseAfter, Rule.run_bind_ok (Rule.run_takeKind_ok hby),
        Rule.run_bind_ok (run_columnList hc hcolumns hnext), Rule.run_pure]

/-! ## Statements -/

/-- Before clauses or the end stands nothing that goes on a condition. -/
theorem kind_before_clauses {cs : List Clause} {s t : σ}
    (h : Reads s (cs.flatMap Clause.kinds) t) (hend : (current t).kind = .endOfInput) :
    Operator.ofKind? (current s).kind = none ∧ (current s).kind ≠ .keyword .whereKw := by
  cases cs with
  | nil =>
    obtain rfl : t = s := h
    rw [hend]
    exact ⟨rfl, by simp⟩
  | cons clause cs =>
    cases clause with
    | limit count =>
      rw [h.1]
      exact ⟨rfl, by simp⟩
    | orderBy columns =>
      rw [h.1]
      exact ⟨rfl, by simp⟩

theorem run_filter (written : Option Phrase) {s t : σ} (hreads : Reads s (filterKinds written) t)
    (hstop : Operator.ofKind? (current t).kind = none)
    (hwhere : (current t).kind ≠ .keyword .whereKw) :
    ∃ phrase : Option Phrase, (∀ p ∈ phrase, p.Respects) ∧
      filterKinds phrase = filterKinds written ∧
      filter.run s = (.ok (phrase.map Phrase.condition), t) := by
  unfold filter
  rw [Rule.run_bind_ok (Rule.run_peek s)]
  cases written with
  | none =>
    obtain rfl : t = s := hreads
    refine ⟨none, by simp, rfl, ?_⟩
    rw [if_neg hwhere]
    rfl
  | some p =>
    obtain ⟨hkeyword, hp⟩ := hreads
    obtain ⟨q, hq, hkinds, hrun⟩ := run_condition p hp hstop
    refine ⟨some q, by simpa using hq, by simp [filterKinds, hkinds], ?_⟩
    rw [if_pos hkeyword, Rule.run_bind_ok (Rule.run_skip s), condition, Rule.run_bind_ok hrun]
    rfl

theorem run_statement (d : Sentence) {s t : σ} (hreads : Reads s d.body t)
    (hend : (current t).kind = .endOfInput) :
    ∃ d' : Sentence, d'.Respects ∧ d'.body = d.body ∧
      statement.run s = (.ok d'.statement, t) := by
  obtain ⟨hselect, hrest⟩ := hreads
  obtain ⟨u, hcolumns, hfrom, htable, hrest⟩ := reads_append.mp hrest
  obtain ⟨v, hfilter, hclauses⟩ := reads_append.mp hrest
  obtain ⟨hstop, hwhere⟩ := kind_before_clauses hclauses hend
  have hlist : columnList.run (advance s) = (.ok d.columns, u) := by
    apply run_columnList d.columns_ne hcolumns
    rw [hfrom]
    simp [EndsColumns]
  obtain ⟨phrase, hrespects, hkinds, hrun⟩ := run_filter d.filter hfilter hstop hwhere
  refine ⟨{ d with filter := phrase }, hrespects, ?_, ?_⟩
  · simp [Sentence.body, hkinds]
  · unfold statement
    rw [Rule.run_bind_ok (Rule.run_takeKind_ok hselect), Rule.run_bind_ok hlist,
      Rule.run_bind_ok (Rule.run_takeKind_ok hfrom), Rule.run_bind_ok (Rule.run_takeName_ok htable),
      Rule.run_bind_ok hrun, Rule.run_bind_ok (run_clauses d.clauses_proper hclauses hend),
      Rule.run_pure, Sentence.statement_eq]

/-- A sentence is read as the statement of the sentence with its tokens that
respects the binding of operators. -/
theorem run_query (d : Sentence) {s t : σ} (hreads : Reads s d.kinds t) :
    ∃ d' : Sentence, d'.Respects ∧ d'.kinds = d.kinds ∧ query.run s = (.ok d'.statement, t) := by
  obtain ⟨u, hbody, hend, rfl⟩ := reads_append.mp hreads
  obtain ⟨d', hrespects, hkinds, hrun⟩ := run_statement d hbody hend
  refine ⟨d', hrespects, by simp [Sentence.kinds, hkinds], ?_⟩
  unfold query
  rw [Rule.run_bind_ok hrun, Rule.run_bind_ok (Rule.run_takeKind_ok hend), Rule.run_pure]

end Grammar

/-! ## One sentence only -/

open Grammar

theorem columns_of_append {cs cs' : List Column} (hcs : cs ≠ []) (hcs' : cs' ≠ [])
    {a b : List Token.Kind} (h : Column.listKinds cs ++ .keyword .fromKw :: a =
      Column.listKinds cs' ++ .keyword .fromKw :: b) : cs = cs' ∧ a = b := by
  have hends : ∀ w, EndsColumns (current (TokenList.ofKinds (.keyword .fromKw :: w))).kind := by
    intro w
    rw [TokenList.kind_ofKinds rfl]
    simp [EndsColumns]
  have hrun := run_columnList hcs (TokenList.reads_ofKinds _ _) (hends a)
  rw [h, run_columnList hcs' (TokenList.reads_ofKinds _ _) (hends b)] at hrun
  obtain ⟨hcolumns, hlist⟩ := Prod.mk.inj hrun
  have htail := TokenList.ofKinds_inj hlist
  simp only [List.cons.injEq, true_and] at htail
  exact ⟨(Except.ok.inj hcolumns).symm, htail.symm⟩

theorem clauses_of_kinds {cs cs' : List Clause} (hcs : ∀ c ∈ cs, c.Proper)
    (hcs' : ∀ c ∈ cs', c.Proper)
    (h : cs.flatMap Clause.kinds ++ [.endOfInput] = cs'.flatMap Clause.kinds ++ [.endOfInput]) :
    cs = cs' := by
  have hend : (current (TokenList.ofKinds [.endOfInput])).kind = .endOfInput := rfl
  have hrun := run_clauses hcs (TokenList.reads_ofKinds _ _) hend
  rw [h, run_clauses hcs' (TokenList.reads_ofKinds _ _) hend] at hrun
  exact (Except.ok.inj (Prod.mk.inj hrun).1).symm

theorem stops_before_clauses (cs : List Clause) :
    ∀ k ∈ (cs.flatMap Clause.kinds ++ [Token.Kind.endOfInput]).head?,
      Phrase.Stops k ∧ k ≠ .keyword .whereKw := by
  intro k hk
  obtain ⟨hstop, hwhere⟩ := kind_before_clauses (TokenList.reads_ofKinds
    (cs.flatMap Clause.kinds) [.endOfInput]) rfl
  rw [TokenList.kind_ofKinds (Option.mem_def.mp hk)] at hstop hwhere
  exact ⟨hstop, hwhere⟩

theorem filter_of_append {p q : Option Phrase} (hp : ∀ x ∈ p, x.Respects)
    (hq : ∀ x ∈ q, x.Respects) {a b : List Token.Kind}
    (ha : ∀ k ∈ a.head?, Phrase.Stops k ∧ k ≠ .keyword .whereKw)
    (hb : ∀ k ∈ b.head?, Phrase.Stops k ∧ k ≠ .keyword .whereKw)
    (h : filterKinds p ++ a = filterKinds q ++ b) : p = q ∧ a = b := by
  cases p with
  | none =>
    cases q with
    | none => exact ⟨rfl, h⟩
    | some q =>
      rw [filterKinds, List.nil_append] at h
      exact absurd rfl (ha (.keyword .whereKw) (by rw [h]; rfl)).2
  | some p =>
    cases q with
    | none =>
      rw [filterKinds, filterKinds, List.nil_append] at h
      exact absurd rfl (hb (.keyword .whereKw) (by rw [← h]; rfl)).2
    | some q =>
      simp only [filterKinds, List.cons_append, List.cons.injEq, true_and] at h
      obtain ⟨hkinds, htail⟩ := Phrase.kinds_eq_of_append h (fun k hk => (ha k hk).1)
        (fun k hk => (hb k hk).1)
      rw [Phrase.eq_of_kinds_eq (hp p rfl) (hq q rfl) hkinds]
      exact ⟨rfl, htail⟩

/-- Two sentences that respect the binding of operators and have the same
tokens are the same. -/
theorem Sentence.eq_of_kinds_eq {d d' : Sentence} (hd : d.Respects) (hd' : d'.Respects)
    (h : d.kinds = d'.kinds) : d = d' := by
  unfold kinds body at h
  simp only [List.cons_append, List.append_assoc, List.cons.injEq, true_and] at h
  obtain ⟨hcolumns, h⟩ := columns_of_append d.columns_ne d'.columns_ne h
  simp only [List.cons.injEq, Token.Kind.name.injEq] at h
  obtain ⟨htable, h⟩ := h
  obtain ⟨hfilter, h⟩ := filter_of_append hd hd' (stops_before_clauses _)
    (stops_before_clauses _) h
  have hclauses := clauses_of_kinds d.clauses_proper d'.clauses_proper h
  obtain ⟨columns, _, table, filter, clauses, _⟩ := d
  obtain ⟨columns', _, table', filter', clauses', _⟩ := d'
  simp only at hcolumns htable hfilter hclauses
  subst hcolumns htable hfilter hclauses
  rfl

/-- What can be built at all can be built so that it respects the binding of
operators. -/
theorem Sentence.exists_respects (d : Sentence) :
    ∃ d' : Sentence, d'.Respects ∧ d'.kinds = d.kinds := by
  have hreads := TokenList.reads_ofKinds d.kinds []
  obtain ⟨d', hrespects, hkinds, -⟩ := run_query d hreads
  exact ⟨d', hrespects, hkinds⟩

end SelectQuery
