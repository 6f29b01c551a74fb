-- Where the grammar takes its tokens from: anything that has a current token
-- and can move on to the next, and that has only so many tokens before its end.
import SelectQuery.Token.Basic

namespace SelectQuery

/-- A source of tokens. -/
class TokenSource (σ : Type) where
  /-- The token to be read next. -/
  current : σ → Token
  /-- The source after its current token. -/
  advance : σ → σ
  /-- A bound on the tokens before the end of the query. -/
  remaining : σ → Nat
  /-- Moving on never raises the bound. -/
  remaining_advance_le : ∀ s, remaining (advance s) ≤ remaining s
  /-- Moving on from a token before the end lowers the bound. -/
  remaining_advance_lt : ∀ s, (current s).isEnd = false → remaining (advance s) < remaining s

export TokenSource (current advance remaining remaining_advance_le remaining_advance_lt)

/-! ## Lists of tokens -/

/-- A list of tokens, after which the query ends. -/
structure TokenList where
  tokens : List Token
  /-- The line on which the query ends. -/
  endLine : Nat
  deriving DecidableEq, Repr

namespace TokenList

/-- The first token, or the end of the query if there is none. -/
def first (list : TokenList) : Token :=
  list.tokens.headD ⟨.endOfInput, list.endLine⟩

/-- The list without its first token. -/
def tail (list : TokenList) : TokenList :=
  { list with tokens := list.tokens.tail }

instance : TokenSource TokenList where
  current := first
  advance := tail
  remaining list := list.tokens.length
  remaining_advance_le list := by simp [tail]
  remaining_advance_lt list h := by
    obtain ⟨tokens, endLine⟩ := list
    cases tokens with
    | nil => simp [first, Token.isEnd, Token.Kind.isEnd] at h
    | cons t ts => simp [tail]

@[simp]
theorem current_nil (line : Nat) :
    current (TokenList.mk [] line) = ⟨.endOfInput, line⟩ := rfl

@[simp]
theorem current_cons (t : Token) (ts : List Token) (line : Nat) :
    current (TokenList.mk (t :: ts) line) = t := rfl

@[simp]
theorem advance_nil (line : Nat) :
    advance (TokenList.mk [] line) = TokenList.mk [] line := rfl

@[simp]
theorem advance_cons (t : Token) (ts : List Token) (line : Nat) :
    advance (TokenList.mk (t :: ts) line) = TokenList.mk ts line := rfl

end TokenList

end SelectQuery
