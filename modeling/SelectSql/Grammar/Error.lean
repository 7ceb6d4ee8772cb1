import SelectSql.Token.Error
import SelectSql.Token.Basic

/-! Texts whose tokens fit no rule of the grammar. -/

namespace SelectSql

/-- What the grammar required where another token stood. -/
inductive Expectation where
  | keyword (word : Keyword)
  | mark (sign : Mark)
  | identifier
  | whitespace
  | expression
  /-- The part of a qualified name after the dot. -/
  | member
  /-- The place of nulls, after `NULLS`. -/
  | nullsPlace
  /-- The predicate that a `NOT` after an operand announces. -/
  | predicate
  /-- Anything else, in words of its own. -/
  | other (text : String)
  deriving DecidableEq, Repr

/-- The wording of an expectation: keywords in capitals, marks between quotes. -/
def Expectation.text : Expectation → String
  -- A quoted mark cannot be mistaken for punctuation of the message.
  | keyword word => word.capitals
  | mark sign => quoteText sign.text
  | identifier => TokenKind.identifier.describe
  | whitespace => TokenKind.space.describe
  | expression => "expression"
  | member => "identifier or *"
  | nullsPlace => "FIRST or LAST"
  | predicate => "BETWEEN, IN, LIKE, ILIKE or a comparison after NOT"
  | other text => text

/-- The reason why a text is not what it was read as. -/
inductive ParseError where
  /-- The text does not split into tokens. -/
  | lexical (error : LexError)
  /-- A token stands where the grammar requires another. -/
  | unexpected (found : Token) (expected : Option Expectation)
  /-- A token follows a complete text. -/
  | trailing (found : Token)
  deriving DecidableEq, Repr

namespace ParseError

/-- The token at fault, if the text split into tokens. -/
def token? : ParseError → Option Token
  -- A text that does not split into tokens has none to blame.
  | lexical _ => none
  | unexpected found _ => some found
  | trailing found => some found

/-- The byte offset of the fault. -/
def position : ParseError → Nat
  -- A fault of the grammar stands where its token starts.
  | lexical error => error.position
  | unexpected found _ => found.position
  | trailing found => found.position

/-- The message that reports the error. -/
def message : ParseError → String
  -- What was required comes first and what was found after it.
  | lexical error => "lexical error: " ++ error.message
  | unexpected found none => "unexpected token: " ++ found.display
  | unexpected found (some expected) =>
    "unexpected token: expected " ++ expected.text ++ ", got " ++ found.display
  | trailing found => "trailing tokens after complete parse: " ++ found.display

end ParseError

end SelectSql
