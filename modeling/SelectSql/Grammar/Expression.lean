import SelectSql.Grammar.Rules
import SelectSql.Syntax.Meaning

/-!
Expressions, in four tiers. Connectives bind loosest, then predicates, then prefix and arithmetic
operators, then atoms; connectives and arithmetic group to the right.
-/

namespace SelectSql.Grammar

variable {σ : Type} [TokenStream σ]

open Parsing

/-- The arguments of a call, of which there may be none. -/
def arguments (inner : Rules σ) : Parsing σ (List Node) := do
  -- White space alone between the parentheses still leaves no arguments.
  skipSpace
  if (← peek).isMark .closeParen then
    return []
  else
    separated inner.expression inner.bound

/-- What follows a name: arguments, a member, or nothing. Neither may stand apart from the name. -/
def named (inner : Rules σ) (name : String) : Parsing σ Node := do
  -- Neither look-ahead skips white space, so a name followed by a space is a plain one.
  if ← eatMark .openParen then
    return .call name (← closedBy .closeParen (arguments inner))
  else if ← eatMark .dot then
    let isMember := fun token : Token => token.kind == .identifier || token.isMark .star
    let member ← require .member fun token => if isMember token then some token.text else none
    return .reference (some name) member
  else
    return .reference none name

/-- The branches of a choice, after the first `WHEN`. -/
def branches (inner : Rules σ) : Nat → Parsing σ (List Branch)
  -- Expressions take the white space around them, so keywords follow directly.
  | 0 => exhausted
  | bound + 1 => do
    let condition ← inner.expression
    requireKeyword .then_
    let result ← inner.expression
    if ← eatKeyword .when then
      return ⟨condition, result⟩ :: (← branches inner bound)
    else
      return [⟨condition, result⟩]

/-- The subject of a choice, which is absent if its first `WHEN` is next. -/
def subject? (inner : Rules σ) : Parsing σ (Option Node) := do
  -- Only a `WHEN` shows that there is no subject; it is left for the first branch.
  if (← peek).isKeyword .when then
    return none
  else
    return some (← inner.expression)

/-- A choice, after its `CASE`, which white space must follow. -/
def choice (inner : Rules σ) : Parsing σ Node := do
  -- A branch and the `END` are required; subject and `ELSE` are optional.
  require .whitespace fun token => if token.isSpace then some () else none
  let subject ← subject? inner
  requireKeyword .when
  let branches ← branches inner inner.bound
  let otherwise ← after? .else_ inner.expression
  requireKeyword .end_
  return .case subject branches otherwise

/-- A literal, a name, a call, a choice, or an expression between parentheses. -/
def atom (inner : Rules σ) : Parsing σ Node := do
  -- Categories decide, so a reserved word other than the two listed starts no value.
  let token ← next
  match token.kind with
  | .literal => return .literal token.text
  | .identifier => named inner token.text
  | .keyword .null => return .literal "NULL"
  | .keyword .case => choice inner
  | .mark =>
    if token.isMark .star then
      return .literal "*"
    else if token.isMark .openParen then
      return .parens (← closedBy .closeParen inner.expression)
    else
      unexpected .expression token
  | _ => unexpected .expression token

/-- A value with the index that may follow it. -/
def subscripted (inner : Rules σ) (value : Node) : Parsing σ Node := do
  -- One index at most is read here.
  if ← eatMark .openBracket then
    let index ← closedBy .closeBracket inner.expression
    skipSpace
    return .subscript value index
  else
    return value

/-- A value with the conversion that may follow it. -/
def converted (inner : Rules σ) (value : Node) : Parsing σ Node := do
  -- The type is an atom, so it may carry arguments and no further suffix.
  if ← eatMark .doubleColon then
    skipSpace
    let target ← atom inner
    skipSpace
    return .cast value target
  else
    return value

/-- A prefix operator and its operand, or an atom with its suffixes and the arithmetic after it. -/
def operand (inner : Rules σ) : Parsing σ Node := do
  -- The right side is an operand again, which groups arithmetic to the right.
  skipSpace
  match ← accept? Token.unaryOp? with
  | some op => return .unary op (← inner.operand)
  | none =>
    let value ← atom inner
    skipSpace
    let value ← subscripted inner value
    let value ← converted inner value
    match ← accept? (Token.binaryOp? BinaryOp.isArithmetic) with
    | some op => return .binary value op (← inner.operand) false
    | none => return value

/-- The predicate that may follow an operand, after the `NOT` that may announce it. -/
def predicateOf (inner : Rules σ) (left : Node) (negation : Option Token) : Parsing σ Node := do
  -- Each form of predicate is announced by a word or sign of its own.
  skipSpace
  if ← eatKeyword .between then
    let low ← inner.operand
    requireKeyword .and
    let high ← inner.operand
    return .binary left .between (.range low high) negation.isSome
  else if ← eatKeyword .in_ then
    skipSpace
    requireMark .openParen
    let items ← closedBy .closeParen (separated inner.expression inner.bound)
    skipSpace
    return .binary left .in_ (.list items) negation.isSome
  else
    match ← accept? (Token.binaryOp? BinaryOp.isMatch) with
    | some op => return .binary left op (← inner.operand) negation.isSome
    | none =>
      -- A `NOT` that announces no predicate is at fault itself, not the token after it.
      match negation with
      | some token => unexpected .predicate token
      | none => return left

/-- An operand with the one predicate that may follow it. -/
def predicate (inner : Rules σ) : Parsing σ Node := do
  -- A `NOT` here announces the predicate after it, and its token is kept to be blamed.
  let left ← operand inner
  let negation ← accept? fun token => if token.isKeyword .not then some token else none
  predicateOf inner left negation

/-- An operator with the `NOT` that an `IS` takes. -/
def withNot (op : BinaryOp) : Parsing σ BinaryOp := do
  -- Only `IS` takes a `NOT` after it.
  if op == .is then
    skipSpace
    return if ← eatKeyword .not then .isNot else .is
  else
    return op

/-- A predicate, or a predicate joined to the expression after it. -/
def expression (inner : Rules σ) : Parsing σ Node := do
  -- The right side is a whole expression, which groups connectives to the right.
  let left ← predicate inner
  match ← accept? (Token.binaryOp? BinaryOp.isLink) with
  | some op =>
    let op ← withNot op
    return .binary left op (← inner.expression) false
  | none => return left

end SelectSql.Grammar
