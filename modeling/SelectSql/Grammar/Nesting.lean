import SelectSql.Grammar.Source

/-! The rules of the grammar tied together, up to a bound on nesting. -/

namespace SelectSql.Grammar

variable {σ : Type} [TokenStream σ]

/-- The rules that may nest in each other up to a bound; beyond it every rule gives up. -/
def rules : Nat → Rules σ
  -- Each level hands nested text to the level below it.
  | 0 => ⟨0, Parsing.exhausted, Parsing.exhausted, Parsing.exhausted⟩
  | bound + 1 =>
    let inner := rules bound
    ⟨bound + 1, expression inner, operand inner, source inner⟩

/-- White space and then the end of input. -/
def endOfInput : Parsing σ Unit := do
  -- White space may follow a complete text.
  Parsing.skipSpace
  let token ← Parsing.next
  if token.isEof then
    return ()
  else
    throw (.refused (.trailing token))

/-- A whole text, with nothing after it. -/
def whole (item : Parsing σ α) : Parsing σ α := do
  -- Trailing tokens are blamed only after the item itself is complete.
  let value ← item
  endOfInput
  return value

/-- A statement after white space, where anything but `SELECT` is refused unread. -/
def statement (inner : Rules σ) : Parsing σ Select := do
  -- Looking first leaves a wrong token for whoever reads next.
  Parsing.skipSpace
  let token ← Parsing.peek
  if token.isKeyword .select then
    select inner
  else
    Parsing.unexpected (.keyword .select) token

/-- A `SELECT` after white space, where anything else is taken and refused. -/
def spacedSelect (inner : Rules σ) : Parsing σ Select := do
  -- The keyword is required outright, so a wrong token is lost.
  Parsing.skipSpace
  select inner

end SelectSql.Grammar
