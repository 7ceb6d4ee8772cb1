import SelectSql.Grammar.Error
import SelectSql.Token.Stream

/-! Steps of a parser over a stream of tokens, and the few operations that all rules are made of. -/

namespace SelectSql

/-- The reason why a parser stopped early. -/
inductive Halt where
  /-- The text is refused. -/
  | refused (error : ParseError)
  /-- The bound on nesting and repetition was too small for the text. -/
  | exhausted
  deriving DecidableEq, Repr

/-- A parser takes tokens from a stream and leaves it where it stopped, also on failure. -/
abbrev Parsing (σ : Type) := EStateM Halt σ

namespace Parsing

variable {σ : Type} [TokenStream σ]

/-- Takes the next token. -/
def next : Parsing σ Token := fun stream =>
  -- A text that does not split into tokens is refused at once.
  match TokenStream.next stream with
  | (.ok token, after) => .ok token after
  | (.error error, after) => .error (.refused (.lexical error)) after

/-- Puts a token back. -/
def push (token : Token) : Parsing σ Unit := fun stream =>
  -- The stream keeps the token for whoever reads next.
  .ok () (TokenStream.push stream token)

/-- Refuses the text because of a token. -/
def unexpected (expected : Expectation) (found : Token) : Parsing σ α :=
  -- The stream is left as it is, so a token already taken stays taken.
  throw (.refused (.unexpected found (some expected)))

/-- Gives up for want of a larger bound. -/
def exhausted : Parsing σ α :=
  -- No token is blamed, since the text may be sound.
  throw .exhausted

/-- Looks at the next token and leaves it in place. -/
def peek : Parsing σ Token := do
  -- The stream has no look-ahead of its own, so the token is taken and put back.
  let token ← next
  push token
  return token

/-- Takes the next token if it means something, and otherwise leaves it in place. -/
def accept? (meaning? : Token → Option α) : Parsing σ (Option α) := do
  -- A token without the meaning belongs to whatever rule comes next.
  let token ← next
  match meaning? token with
  | some meaning => return some meaning
  | none =>
    push token
    return none

/-- Takes the next token if it passes a test, and otherwise leaves it in place. -/
def eat (test : Token → Bool) : Parsing σ Bool := do
  -- Passing the test is all the meaning that is asked for.
  let taken ← accept? fun token => if test token then some token else none
  return taken.isSome

/-- Takes the next token if it is a given keyword. -/
def eatKeyword (word : Keyword) : Parsing σ Bool :=
  -- White space before the keyword must have been skipped already.
  eat (·.isKeyword word)

/-- Takes the next token if it is a given mark. -/
def eatMark (sign : Mark) : Parsing σ Bool :=
  -- White space before the mark must have been skipped already.
  eat (·.isMark sign)

/-- Takes the next token if it is a name, and gives its text. -/
def eatIdentifier? : Parsing σ (Option String) :=
  -- A reserved word is no name, so it stays for the rule that knows it.
  accept? fun token => if token.kind = .identifier then some token.text else none

/-- Takes white space, if there is any. -/
def skipSpace : Parsing σ Unit := do
  -- A run of white space is one token, so one step is enough.
  let _ ← eat Token.isSpace

/-- Takes the next token, which must mean something. -/
def require (expected : Expectation) (meaning? : Token → Option α) : Parsing σ α := do
  -- The token at fault stays taken.
  let token ← next
  match meaning? token with
  | some meaning => return meaning
  | none => unexpected expected token

/-- Takes the next token, which must be a given keyword. -/
def requireKeyword (word : Keyword) : Parsing σ Unit :=
  -- The expectation names the keyword in capitals.
  require (.keyword word) fun token => if token.isKeyword word then some () else none

/-- Takes the next token, which must be a given mark. -/
def requireMark (sign : Mark) : Parsing σ Unit :=
  -- The expectation quotes the mark.
  require (.mark sign) fun token => if token.isMark sign then some () else none

/-- Takes the next token, which must be a name, and gives its text. -/
def requireIdentifier : Parsing σ String :=
  -- The text of a delimited name keeps its delimiters.
  require .identifier fun token => if token.kind = .identifier then some token.text else none

/-- Reads an item if a keyword announces it. -/
def after? (word : Keyword) (item : Parsing σ α) : Parsing σ (Option α) := do
  -- Without the keyword nothing is taken.
  if ← eatKeyword word then
    return some (← item)
  else
    return none

/-- Reads an item and then the mark that closes it. -/
def closedBy (sign : Mark) (item : Parsing σ α) : Parsing σ α := do
  -- White space before the mark is for the item to take.
  let value ← item
  requireMark sign
  return value

/-- Takes one item or more, with a comma between neighbours. -/
def separated (item : Parsing σ α) : Nat → Parsing σ (List α)
  -- A comma promises a further item, so a list cannot end in one.
  | 0 => exhausted
  | bound + 1 => do
    let first ← item
    if ← eatMark .comma then
      return first :: (← separated item bound)
    else
      return [first]

end Parsing

end SelectSql
