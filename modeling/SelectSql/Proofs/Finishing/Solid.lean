import SelectSql.Grammar.Progress
import SelectSql.Proofs.Lexical.Scans
import SelectSql.Proofs.Lexical.Tiling

/-!
Counting what is left to read. White space may be skipped or put back without any progress, so the
tokens that count are the others, wherever they are: among the tokens put back or in the text.
-/

namespace SelectSql

/-- The tokens that are left: those put back, and those of the text up to its end or a fault. -/
def Lexer.remaining (lexer : Lexer) : List Token :=
  -- Tokens put back are taken before the text goes on.
  lexer.pushed ++ ({ lexer with pushed := [] } : Lexer).drain.1

/-- The number of remaining tokens that are text of their own. -/
def Lexer.solid (lexer : Lexer) : Nat :=
  -- White space and ends of input put back by hand are passed over.
  lexer.remaining.countP Token.isSolid

/-- How much a token counts where white space does not. -/
def Token.solidWeight (token : Token) : Nat :=
  -- Only text of its own is progress.
  if token.isSolid then 1 else 0

variable {lexer after : Lexer} {token : Token}

/-- The tokens that are left are no fewer than those that count. -/
theorem Lexer.solid_le (lexer : Lexer) : lexer.solid ≤ lexer.remaining.length :=
  -- Those that count are some of them.
  List.countP_le_length

/-- What is left of a lexer with a token put back is that token first. -/
theorem Lexer.remaining_push (lexer : Lexer) (token : Token) :
    (lexer.push token).remaining = token :: lexer.remaining := rfl

/-- A token put back counts again. -/
theorem Lexer.solid_push (lexer : Lexer) (token : Token) :
    (lexer.push token).solid = token.solidWeight + lexer.solid := by
  -- The token comes before the others, which are as they were.
  rw [solid, remaining_push, List.countP_cons, Nat.add_comm]
  rfl

/-- A token taken no longer counts. -/
theorem Lexer.solid_next (taken : lexer.next = (.ok token, after)) :
    after.solid + token.solidWeight ≤ lexer.solid := by
  obtain ⟨chars, position, pushed⟩ := lexer
  cases pushed with
  | cons head pushed =>
    -- The token was put back before, and taking it undoes that.
    obtain ⟨rfl, rfl⟩ : head = token ∧ ⟨chars, position, pushed⟩ = after := by
      simpa [next] using taken
    have same := solid_push ⟨chars, position, pushed⟩ head
    simp only [push] at same
    omega
  | nil =>
    have whole : ∀ chars position, solid ⟨chars, position, []⟩ =
        (drain ⟨chars, position, []⟩).1.countP Token.isSolid := fun _ _ => rfl
    -- Nothing has been put back, so the token is from the text.
    rcases next_eq_ok.1 taken with ⟨_, rfl, rfl⟩ | ⟨kind, characters, rest, found, rfl, rfl⟩
    · -- After the end of input comes the same end of input, and it does not count.
      rename_i empty
      subst empty
      exact Nat.le_refl _
    · have real := (Token.lexeme_of_admits ⟨position, position + byteLength characters⟩
        (admits_of_readLexeme found).1).1
      rw [whole, whole, drain_token taken real, List.countP_cons]
      exact Nat.le_refl _

/-- The measure that counts the remaining tokens but white space. -/
def Lexer.solidGauge : Gauge Lexer where
  left := solid
  weight := Token.solidWeight
  admits _ := True
  weight_pos solid := by simp [Token.solidWeight, solid]
  left_next := solid_next
  left_push lexer token := Nat.le_of_eq (solid_push lexer token)
  lexical _ := trivial
  unexpected _ _ := trivial

end SelectSql
