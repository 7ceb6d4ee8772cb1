import SelectSql.Grammar.Statement

/-! Sources of rows: tables, statements and joins of these, grouping to the left. -/

namespace SelectSql.Grammar

variable {σ : Type} [TokenStream σ]

open Parsing

/-- The `OUTER` after the first word of a join, which a full join requires. -/
def outer (kind : JoinKind) : Parsing σ JoinKind := do
  -- A side may leave the word out, and what was written is kept.
  match kind with
  | .left => return if ← eatKeyword .outer then .leftOuter else .left
  | .right => return if ← eatKeyword .outer then .rightOuter else .right
  | .fullOuter =>
    requireKeyword .outer
    return .fullOuter
  | kind => return kind

/-- The words of a join after the first, up to and including `JOIN`. -/
def joinWords (first : JoinKind) : Parsing σ JoinKind := do
  -- A plain join is its `JOIN` alone, which has been taken already.
  if first == .plain then
    return .plain
  else
    skipSpace
    let kind ← outer first
    skipSpace
    requireKeyword .join
    return kind

/-- A name, with the name of what holds it before a dot if one is written. -/
def tableName : Parsing σ Node := do
  -- A dot must follow the name directly, and the second name the dot.
  let first ← requireIdentifier
  if ← eatMark .dot then
    return .reference (some first) (← requireIdentifier)
  else
    return .reference none first

/-- A table, a statement, or a source between parentheses. -/
def unnamedSource (inner : Rules σ) : Parsing σ Node := do
  -- A statement may stand as a source without parentheses of its own.
  if ← eatMark .openParen then
    return .parens (← closedBy .closeParen inner.source)
  else if (← peek).isKeyword .select then
    return .select (← select inner)
  else
    tableName

/-- One member of a join, with its name if one is given. -/
def joined (inner : Rules σ) : Parsing σ Node := do
  -- A bare word after a source names it, which a projection does not allow.
  skipSpace
  let source ← unnamedSource inner
  skipSpace
  if ← eatKeyword .as then
    skipSpace
    return .aliasAs source (← requireIdentifier)
  else
    match ← eatIdentifier? with
    | some name => return .aliasBare source name
    | none => return source

/-- A source with the joins that follow it, each taking all before it as its left side. -/
def joins (inner : Rules σ) : Nat → Node → Parsing σ Node
  -- Each join becomes the left side of the next, which groups joins to the left.
  | 0, _ => exhausted
  | bound + 1, left => do
    skipSpace
    match ← accept? Token.joinKind? with
    | none => return left
    | some first =>
      let kind ← joinWords first
      let right ← joined inner
      skipSpace
      let condition ← after? .on inner.expression
      joins inner bound (.join kind left right condition)

/-- A source of rows with all its joins. -/
def source (inner : Rules σ) : Parsing σ Node := do
  -- The bound of the nested rules bounds the number of joins too.
  let first ← joined inner
  joins inner inner.bound first

end SelectSql.Grammar
