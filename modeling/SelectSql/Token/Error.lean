import SelectSql.Text.Quoted

/-! Texts that do not split into tokens. -/

namespace SelectSql

/-- The reason why no token could be read. -/
inductive LexError where
  /-- A character that starts no token, with the text from it on. -/
  | unexpectedCharacter (position : Nat) (rest : String)
  /-- A quoted text without its closing delimiter. -/
  | unterminatedQuote (position : Nat) (delimiter : Char)
  deriving DecidableEq, Repr

namespace LexError

/-- The byte offset of the character at fault. -/
def position : LexError → Nat
  -- Both reasons point at the character where the token would have begun.
  | unexpectedCharacter position _ => position
  | unterminatedQuote position _ => position

/-- The message that reports the error. -/
def message : LexError → String
  -- The text at fault is quoted, so that unprintable characters in it can be seen.
  | unexpectedCharacter position rest =>
    "unexpected character at " ++ toString position ++ ": " ++ quoteText rest
  | unterminatedQuote position delimiter =>
    "end of input reached in string started at " ++ toString position ++ " with "
      ++ quoteChar delimiter

end LexError

end SelectSql
