import SelectSql.Grammar.Progress

/-!
Reading whole texts as statements, sources or expressions. The bound on nesting is the number of
unread tokens, which is known to last, so no reading gives up.
-/

namespace SelectSql

open TokenStream (unread)
open Grammar (rules rules_last whole whole_spends)

variable {σ : Type} [TokenStream σ]

/-- Runs a parser that is known to last, and gives its result with what it left of the stream. -/
def Parsing.finish {bound cost : Nat} (parser : Parsing σ α) (stream : σ)
    (lasting : parser.Spends bound cost) (few : unread stream < bound) : Except ParseError α × σ :=
  -- The one other outcome contradicts what is known of the parser.
  match found : parser stream with
  | .ok value after => (.ok value, after)
  | .error (.refused error) after => (.error error, after)
  | .error .exhausted _ => absurd (lasting stream few) (by simp [found])

/-- Reads all of a stream as a statement; without a leading `SELECT` the next token is kept. -/
def readStatement (stream : σ) : Except ParseError Select × σ :=
  Parsing.finish (whole (Grammar.statement (rules (unread stream)))) stream
    (whole_spends (Grammar.statement_spends (rules_last _))) (Nat.lt_succ_self _)

/-- Reads all of a stream as a statement; without a leading `SELECT` the next token is lost. -/
def readSelect (stream : σ) : Except ParseError Select × σ :=
  Parsing.finish (whole (Grammar.spacedSelect (rules (unread stream)))) stream
    (whole_spends (Grammar.spacedSelect_spends (rules_last _))) (Nat.lt_succ_self _)

/-- Reads all of a stream as an expression. -/
def readExpression (stream : σ) : Except ParseError Node × σ :=
  Parsing.finish (whole (Grammar.expression (rules (unread stream)))) stream
    (whole_spends (Grammar.expression_spends (rules_last _))) (Nat.lt_succ_self _)

/-- Reads all of a stream as one source of rows, joins included. -/
def readSource (stream : σ) : Except ParseError Node × σ :=
  Parsing.finish (whole (Grammar.source (rules (unread stream)))) stream
    (whole_spends (Grammar.source_spends (rules_last _))) (Nat.lt_succ_self _)

/-- The statement that a text is. -/
def parseStatement (text : String) : Except ParseError Select :=
  -- A text has no later reader, so only the result is kept.
  (readStatement (Lexer.ofText text)).1

/-- The statement that a text is; it differs from `parseStatement` only in what a refusal takes. -/
def parseSelect (text : String) : Except ParseError Select :=
  -- The two differ in the stream that is left, and here nothing is left to read it.
  (readSelect (Lexer.ofText text)).1

/-- The expression that a text is. -/
def parseExpression (text : String) : Except ParseError Node :=
  -- A text has no later reader, so only the result is kept.
  (readExpression (Lexer.ofText text)).1

/-- The source of rows that a text is. -/
def parseSource (text : String) : Except ParseError Node :=
  -- A text has no later reader, so only the result is kept.
  (readSource (Lexer.ofText text)).1

end SelectSql
