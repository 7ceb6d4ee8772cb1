import SelectSql.Syntax.Operator
import SelectSql.Syntax.Join
import SelectSql.Syntax.Order
import SelectSql.Token.Basic

/-! What a single token means as an operator, a direction or the first word of a join. -/

namespace SelectSql.Token

/-- The binary operator that a token spells, among those that pass a test. -/
def binaryOp? (admitted : BinaryOp → Bool) (token : Token) : Option BinaryOp :=
  -- The place in the grammar decides which operators are admitted there.
  (token.terminal?.bind BinaryOp.ofTerminal?).filter admitted

/-- The unary operator that a token spells. -/
def unaryOp? (token : Token) : Option UnaryOp :=
  -- A sign that is also binary counts as unary where an operand is due.
  token.terminal?.bind UnaryOp.ofTerminal?

/-- The direction that a token spells. -/
def direction? (token : Token) : Option SortOption :=
  -- The category carries the keyword, so the text is not consulted.
  match token.kind with
  | .keyword .asc => some .asc
  | .keyword .desc => some .desc
  | _ => none

/-- The place of nulls that a token after `NULLS` spells. -/
def nullsPlace? (token : Token) : Option SortOption :=
  -- The two words mean this only after `NULLS`.
  match token.kind with
  | .keyword .first => some .nullsFirst
  | .keyword .last => some .nullsLast
  | _ => none

/-- The kind of join that a token begins; a full join is always an outer one. -/
def joinKind? (token : Token) : Option JoinKind :=
  -- Optional words after the first are read later and may refine the kind.
  match token.kind with
  | .keyword .join => some .plain
  | .keyword .inner => some .inner
  | .keyword .cross => some .cross
  | .keyword .left => some .left
  | .keyword .right => some .right
  | .keyword .full => some .fullOuter
  | _ => none

end SelectSql.Token
