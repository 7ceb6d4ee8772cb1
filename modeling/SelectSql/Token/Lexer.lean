import SelectSql.Token.Error
import SelectSql.Token.LexemeLaws

/-! Reading a text token by token, with tokens that may be put back. -/

namespace SelectSql

/-- The number of bytes that characters take in UTF-8. -/
def byteLength (chars : List Char) : Nat :=
  -- Offsets count bytes, so characters beyond ASCII advance them by more than one.
  chars.foldr (fun char bytes => char.utf8Size + bytes) 0

/-- A text being read: what is left of it, where that starts, and the tokens put back. -/
structure Lexer where
  /-- The characters not yet read. -/
  rest : List Char
  /-- The byte offset of those characters. -/
  position : Nat
  /-- The tokens put back, the next one first. -/
  pushed : List Token
  deriving DecidableEq, Repr

/-- The text of a token, with keywords in lower case and all else as written. -/
def TokenKind.textOf (kind : TokenKind) (taken : List Char) : String :=
  -- Lowering a keyword hides how it was written; the span still tells where.
  match kind with
  | .keyword word => word.text
  | _ => String.ofList taken

/-- How much a token counts towards what is left to read; the end of input counts for nothing. -/
def Token.weight (token : Token) : Nat :=
  -- The end of input can be taken without end, so it must not count.
  if token.isEof then 0 else 1

namespace Lexer

/-- A lexer at the start of a text. -/
def ofText (text : String) : Lexer :=
  -- Offsets start at zero and nothing has been put back.
  ⟨text.toList, 0, []⟩

/-- Reads a token from the text itself, past any tokens put back. -/
def scan (lexer : Lexer) : Except LexError Token × Lexer :=
  match readLexeme lexer.rest with
  | .finished => (.ok (.eof lexer.position), lexer)
  | .lexeme kind taken rest =>
    let stop := lexer.position + byteLength taken
    (.ok ⟨kind, kind.textOf taken, ⟨lexer.position, stop⟩⟩, { lexer with rest, position := stop })
  | .unclosed delimiter =>
    -- The whole text was searched for the closing delimiter, so nothing of it is left.
    (.error (.unterminatedQuote lexer.position delimiter),
      { lexer with rest := [], position := lexer.position + byteLength lexer.rest })
  | .unknown =>
    -- The character stays in place, so every later attempt fails on it again.
    (.error (.unexpectedCharacter lexer.position (String.ofList lexer.rest)), lexer)

/-- Takes the next token: the one put back last, or else one read from the text. -/
def next (lexer : Lexer) : Except LexError Token × Lexer :=
  -- Tokens put back come before the text, the latest of them first.
  match lexer.pushed with
  | token :: pushed => (.ok token, { lexer with pushed })
  | [] => lexer.scan

/-- Puts a token back, to be taken before anything else. -/
def push (lexer : Lexer) (token : Token) : Lexer :=
  -- The place in the text does not move, so the token keeps the span it came with.
  { lexer with pushed := token :: lexer.pushed }

/-- Looks at the next token and leaves it in place. -/
def peek (lexer : Lexer) : Except LexError Token × Lexer :=
  -- A failed attempt has no token to put back, so its effect on the text stays.
  match lexer.next with
  | (.ok token, after) => (.ok token, after.push token)
  | failed => failed

/-- A bound on the tokens that remain before the end of input. -/
def unread (lexer : Lexer) : Nat :=
  -- Every token in the text takes a character at least.
  lexer.pushed.countP (!·.isEof) + lexer.rest.length

/-- A token put back counts for what it weighs. -/
theorem countP_cons_weight (token : Token) (pushed : List Token) :
    (token :: pushed).countP (!·.isEof) = token.weight + pushed.countP (!·.isEof) := by
  -- The end of input is neither counted nor of any weight.
  cases ending : token.isEof <;> simp [Token.weight, ending, Nat.add_comm]

/-- Putting a token back makes it unread. -/
theorem unread_push (lexer : Lexer) (token : Token) :
    (lexer.push token).unread = token.weight + lexer.unread := by
  -- The new token joins the others and the text is as before.
  rw [push, unread, countP_cons_weight, Nat.add_assoc]
  rfl

/-- A token taken is no longer unread. -/
theorem unread_next {lexer after : Lexer} {token : Token}
    (taken : lexer.next = (.ok token, after)) : after.unread + token.weight ≤ lexer.unread := by
  unfold next at taken
  split at taken
  · -- A token that was put back leaves its place in the list.
    rename_i head pushed held
    simp only [Prod.mk.injEq, Except.ok.injEq] at taken
    obtain ⟨rfl, rfl⟩ := taken
    simp only [unread, held, countP_cons_weight]
    omega
  · -- A token from the text takes at least one character, unless it is the end of input.
    rename_i held
    unfold scan at taken
    split at taken <;> simp only [Prod.mk.injEq, Except.ok.injEq, reduceCtorEq, false_and] at taken
    · obtain ⟨rfl, rfl⟩ := taken
      simp [Token.weight, Token.isEof, Token.eof]
    · rename_i kind characters rest found
      obtain ⟨rfl, rfl⟩ := taken
      have shorter := rest_shorter_of_readLexeme found
      simp only [unread, Token.weight, held, List.countP_nil]
      split <;> omega

/-- A failed attempt never adds to what is left to read. -/
theorem unread_failed {lexer after : Lexer} {error : LexError}
    (failed : lexer.next = (.error error, after)) : after.unread ≤ lexer.unread := by
  -- Failure happens in the text only, where it may discard characters and never adds any.
  unfold next at failed
  split at failed
  · simp at failed
  · unfold scan at failed
    split at failed <;>
      simp only [Prod.mk.injEq, Except.error.injEq, reduceCtorEq, false_and] at failed
    · -- A missing delimiter discards the text.
      obtain ⟨rfl, rfl⟩ := failed
      simp [unread]
    · -- An unknown character stays in place.
      obtain ⟨rfl, rfl⟩ := failed
      exact Nat.le_refl _

/-- Takes every token up to the first end of input, and that one too. -/
def tokenizeAll (lexer : Lexer) : Except LexError (List Token) × Lexer :=
  match taken : lexer.next with
  | (.error error, after) => (.error error, after)
  | (.ok token, after) =>
    if ends : token.isEof then (.ok [token], after)
    else
      -- Every token before the end of input counts, so less is unread after it.
      have smaller : after.unread < lexer.unread := by
        have step := unread_next taken
        simp only [Token.weight, ends, Bool.false_eq_true, if_false] at step
        omega
      match tokenizeAll after with
      | (.ok tokens, last) => (.ok (token :: tokens), last)
      | (.error error, last) => (.error error, last)
termination_by lexer.unread

end Lexer

/-- The tokens of a text, up to and including the end of input. -/
def tokenize (text : String) : Except LexError (List Token) :=
  (Lexer.ofText text).tokenizeAll.1

end SelectSql
