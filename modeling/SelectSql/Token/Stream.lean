import SelectSql.Token.Lexer

/-! Streams of tokens: where a parser takes its input from. -/

namespace SelectSql

/-- A stream that gives tokens one by one and takes them back. -/
class TokenStream (σ : Type) where
  /-- Takes the next token; after the last one the end of input comes again and again. -/
  next : σ → Except LexError Token × σ
  /-- Puts a token back, to be taken before anything else. -/
  push : σ → Token → σ
  /-- A bound on the tokens that remain before the end of input. -/
  unread : σ → Nat
  /-- A token taken is no longer unread. -/
  unread_next : ∀ {stream after : σ} {token : Token},
    next stream = (.ok token, after) → unread after + token.weight ≤ unread stream
  /-- A failed attempt never adds to what is left to read. -/
  unread_failed : ∀ {stream after : σ} {error : LexError},
    next stream = (.error error, after) → unread after ≤ unread stream
  /-- Putting a token back makes it unread. -/
  unread_push : ∀ (stream : σ) (token : Token),
    unread (push stream token) = token.weight + unread stream

/-- A text being read is a stream of tokens. -/
instance : TokenStream Lexer where
  next := Lexer.next
  push := Lexer.push
  unread := Lexer.unread
  unread_next := Lexer.unread_next
  unread_failed := Lexer.unread_failed
  unread_push := Lexer.unread_push

end SelectSql
