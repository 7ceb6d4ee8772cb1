import SelectSql.Grammar.Expression

/-! Statements: `SELECT` and its clauses. -/

namespace SelectSql.Grammar

variable {σ : Type} [TokenStream σ]

open Parsing

/-- A projection, with its name if `AS` gives one. -/
def projection (inner : Rules σ) : Parsing σ Node := do
  -- A bare word after a value is no name for it, so `AS` is needed.
  let value ← inner.expression
  if ← eatKeyword .as then
    skipSpace
    return .aliasAs value (← requireIdentifier)
  else
    return value

/-- The projections, which may be left out before `FROM`, `WHERE` and the end of input. -/
def projections? (inner : Rules σ) : Parsing σ (Option (List Node)) := do
  -- The next token is enough to tell, and stays for the clause that it begins.
  let token ← peek
  if token.isKeyword .from_ || token.isKeyword .where_ || token.isEof then
    return none
  else
    let items ← separated (projection inner) inner.bound
    skipSpace
    return some items

/-- A sort key: an expression, a direction and a place for nulls. -/
def sortKey (inner : Rules σ) : Parsing σ SortKey := do
  -- The direction comes before the place of nulls, and both may be absent.
  let key ← inner.expression
  let direction ← accept? Token.direction?
  skipSpace
  let nulls ← after? .nulls do
    skipSpace
    require .nullsPlace Token.nullsPlace?
  skipSpace
  return ⟨key, direction.toList ++ nulls.toList⟩

/-- The list of a `GROUP` or `ORDER`, which begins with `BY`. -/
def byList (inner : Rules σ) (item : Parsing σ α) : Parsing σ (List α) := do
  -- At least one item is required after `BY`.
  skipSpace
  requireKeyword .by_
  separated item inner.bound

/-- The value of a `LIMIT` or `OFFSET`. -/
def rowCount (inner : Rules σ) : Parsing σ Node := do
  -- A single atom is read, so arithmetic needs parentheses.
  skipSpace
  let value ← atom inner
  skipSpace
  return value

/-- A statement from its `SELECT` on; its clauses come in one fixed order. -/
def select (inner : Rules σ) : Parsing σ Select := do
  -- A clause out of order is left unread, to be refused by whoever asked for the statement.
  requireKeyword .select
  skipSpace
  let distinct ← eatKeyword .distinct
  skipSpace
  let projections ← projections? inner
  let sources ← after? .from_ (separated inner.source inner.bound)
  let filter ← after? .where_ inner.expression
  let groupBy ← after? .group (byList inner inner.expression)
  let orderBy ← after? .order (byList inner (sortKey inner))
  let limit ← after? .limit (rowCount inner)
  let offset ← after? .offset (rowCount inner)
  return { distinct, projections, sources, filter, groupBy, orderBy, limit, offset }

end SelectSql.Grammar
