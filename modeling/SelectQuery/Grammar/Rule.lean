-- Rules: what reads something from a source of tokens, or fails with a fault
-- and stays at the token where it failed. No rule makes its source longer, so
-- a rule can be repeated after each of some tokens until none of them comes.
import SelectQuery.Grammar.Fault
import SelectQuery.Grammar.Source

namespace SelectQuery

variable {σ : Type} [TokenSource σ] {α β : Type}

/-- A rule that reads an `α`. -/
structure Rule (σ : Type) [TokenSource σ] (α : Type) where
  /-- The outcome, and the source where reading stopped. -/
  run : σ → Except Fault α × σ
  /-- The source does not grow. -/
  remaining_le : ∀ s, remaining (run s).2 ≤ remaining s

namespace Rule

theorem ext {p q : Rule σ α} (h : ∀ s, p.run s = q.run s) : p = q := by
  obtain ⟨_, _⟩ := p
  obtain ⟨_, _⟩ := q
  obtain rfl := funext h
  rfl

/-! ## Joining rules -/

/-- The rule that reads nothing. -/
protected def pure (a : α) : Rule σ α where
  run s := (.ok a, s)
  remaining_le _ := Nat.le_refl _

/-- A rule, and then one that depends on what it read. -/
protected def bind (p : Rule σ α) (f : α → Rule σ β) : Rule σ β where
  run s :=
    match p.run s with
    | (.ok a, t) => (f a).run t
    | (.error fault, t) => (.error fault, t)
  remaining_le s := by
    have hp := p.remaining_le s
    split
    · next a t h =>
      rw [h] at hp
      exact Nat.le_trans ((f a).remaining_le t) hp
    · next fault t h =>
      rw [h] at hp
      exact hp

instance : Monad (Rule σ) where
  pure := Rule.pure
  bind := Rule.bind

theorem run_pure (a : α) (s : σ) : (pure a : Rule σ α).run s = (.ok a, s) := rfl

theorem run_bind_ok {p : Rule σ α} {f : α → Rule σ β} {s t : σ} {a : α}
    (h : p.run s = (.ok a, t)) : (p >>= f).run s = (f a).run t := by
  change (Rule.bind p f).run s = _
  simp [Rule.bind, h]

theorem run_bind_error {p : Rule σ α} {f : α → Rule σ β} {s t : σ} {fault : Fault}
    (h : p.run s = (.error fault, t)) : (p >>= f).run s = (.error fault, t) := by
  change (Rule.bind p f).run s = _
  simp [Rule.bind, h]

protected theorem map_id (p : Rule σ α) : id <$> p = p := by
  refine Rule.ext fun s => ?_
  change (Rule.bind p fun a => Rule.pure (id a)).run s = _
  rcases h : p.run s with ⟨fault | a, t⟩ <;> simp [Rule.bind, Rule.pure, h]

protected theorem bind_assoc {γ : Type} (p : Rule σ α) (f : α → Rule σ β) (g : β → Rule σ γ) :
    p >>= f >>= g = p >>= fun a => f a >>= g := by
  refine Rule.ext fun s => ?_
  change (Rule.bind (Rule.bind p f) g).run s = (Rule.bind p fun a => Rule.bind (f a) g).run s
  rcases h : p.run s with ⟨fault | a, t⟩ <;> simp [Rule.bind, h]

instance : LawfulMonad (Rule σ) :=
  LawfulMonad.mk' (Rule σ) Rule.map_id (fun _ _ => rfl) Rule.bind_assoc

/-! ## Single tokens -/

/-- The kind of the current token, which stays where it is. -/
def peek : Rule σ Token.Kind where
  run s := (.ok (current s).kind, s)
  remaining_le _ := Nat.le_refl _

/-- Passes over the current token. -/
def skip : Rule σ Unit where
  run s := (.ok (), advance s)
  remaining_le s := remaining_advance_le s

/-- Fails at the current token. -/
def reject (fault : Token → Fault) : Rule σ α where
  run s := (.error (fault (current s)), s)
  remaining_le _ := Nat.le_refl _

/-- Takes the current token if `read?` makes something of it. -/
def take (expected : Expectation) (read? : Token.Kind → Option α) : Rule σ α where
  run s :=
    match read? (current s).kind with
    | some a => (.ok a, advance s)
    | none => (.error (.unexpected expected (current s)), s)
  remaining_le s := by
    split
    · exact remaining_advance_le s
    · exact Nat.le_refl _

/-- Takes the current token if it is of the given kind. -/
def takeKind (expected : Expectation) (kind : Token.Kind) : Rule σ Unit :=
  take expected fun k => if k = kind then some () else none

/-- Takes the current token if it is a name. -/
def takeName (expected : Expectation) : Rule σ String :=
  take expected fun
    | .name n => some n
    | _ => none

theorem run_peek (s : σ) : peek.run s = (.ok (current s).kind, s) := rfl

theorem run_skip (s : σ) : skip.run s = (.ok (), advance s) := rfl

theorem run_reject (fault : Token → Fault) (s : σ) :
    (reject fault : Rule σ α).run s = (.error (fault (current s)), s) := rfl

theorem run_take_ok {expected : Expectation} {read? : Token.Kind → Option α} {s : σ} {a : α}
    (h : read? (current s).kind = some a) : (take expected read?).run s = (.ok a, advance s) := by
  simp [take, h]

theorem run_take_error {expected : Expectation} {read? : Token.Kind → Option α} {s : σ}
    (h : read? (current s).kind = none) :
    (take expected read?).run s = (.error (.unexpected expected (current s)), s) := by
  simp [take, h]

theorem run_takeKind_ok {expected : Expectation} {kind : Token.Kind} {s : σ}
    (h : (current s).kind = kind) : (takeKind expected kind).run s = (.ok (), advance s) :=
  run_take_ok (by simp [h])

theorem run_takeKind_error {expected : Expectation} {kind : Token.Kind} {s : σ}
    (h : (current s).kind ≠ kind) :
    (takeKind expected kind).run s = (.error (.unexpected expected (current s)), s) :=
  run_take_error (by simp [h])

/-! ## Repetition -/

/-- Runs `body` after each current token that opens it, as long as one does. -/
def repeatFrom (opens : Token.Kind → Option β) (hend : opens .endOfInput = none)
    (body : β → Rule σ α) (s : σ) :
    { o : Except Fault (List α) × σ // remaining o.2 ≤ remaining s } :=
  match hopen : opens (current s).kind with
  | none => ⟨(.ok [], s), Nat.le_refl _⟩
  | some b =>
    have hlt : remaining (advance s) < remaining s := by
      refine remaining_advance_lt s ?_
      cases hkind : (current s).kind <;> simp_all [Token.isEnd, Token.Kind.isEnd]
    have hbody := (body b).remaining_le (advance s)
    match hrun : (body b).run (advance s) with
    | (.error fault, t) =>
      ⟨(.error fault, t), by rw [hrun] at hbody; exact Nat.le_trans hbody (Nat.le_of_lt hlt)⟩
    | (.ok a, t) =>
      have hle : remaining t < remaining s := by
        rw [hrun] at hbody
        exact Nat.lt_of_le_of_lt hbody hlt
      match repeatFrom opens hend body t with
      | ⟨(.error fault, u), hu⟩ => ⟨(.error fault, u), Nat.le_trans hu (Nat.le_of_lt hle)⟩
      | ⟨(.ok as, u), hu⟩ => ⟨(.ok (a :: as), u), Nat.le_trans hu (Nat.le_of_lt hle)⟩
termination_by remaining s

/-- Runs `body` after each current token that opens it, as long as one does.
The end of the query opens nothing. -/
def repeatAfter (opens : Token.Kind → Option β) (body : β → Rule σ α)
    (hend : opens .endOfInput = none := by rfl) : Rule σ (List α) where
  run s := (repeatFrom opens hend body s).val
  remaining_le s := (repeatFrom opens hend body s).property

/-- Repetition in terms of itself: nothing, or one round and the others. -/
theorem repeatAfter_eq (opens : Token.Kind → Option β) (body : β → Rule σ α)
    (hend : opens .endOfInput = none) :
    repeatAfter opens body hend = (do
      match opens (← peek) with
      | none => pure []
      | some b =>
        skip
        let a ← body b
        let as ← repeatAfter opens body hend
        pure (a :: as)) := by
  refine Rule.ext fun s => ?_
  rw [run_bind_ok (run_peek s)]
  change (repeatFrom opens hend body s).val = _
  rw [repeatFrom]
  split
  · next h => rw [h, run_pure]
  · next b h =>
    simp only [h]
    rw [run_bind_ok (run_skip s)]
    split
    · next fault t hrun => rw [run_bind_error hrun]
    · next a t hrun =>
      rw [run_bind_ok hrun]
      have hrec : (repeatAfter opens body hend).run t = (repeatFrom opens hend body t).val := rfl
      split
      · next fault u hu hval =>
        rw [hval] at hrec
        rw [run_bind_error hrec]
      · next as u hu hval =>
        rw [hval] at hrec
        rw [run_bind_ok hrec, run_pure]

end Rule

end SelectQuery
