import SelectSql.Proofs.Twins.Tape

/-!
Completing what has been read. A parser that runs out of tokens inside a text is given a few more,
with white space between them, and then the end of input.
-/

namespace SelectSql

/-- The words that unfinished texts are completed with. -/
inductive Filler where
  /-- The empty string, which is an expression by itself. -/
  | string
  /-- A name, which is a source by itself. -/
  | name
  /-- A keyword or a mark. -/
  | symbol (terminal : Terminal)
  deriving DecidableEq

namespace Filler

/-- A keyword as a filler. -/
abbrev keyword (word : Keyword) : Filler := symbol (.keyword word)

/-- A mark as a filler. -/
abbrev mark (sign : Mark) : Filler := symbol (.mark sign)

/-- What a filler says. -/
def lexeme : Filler → Lexeme
  -- A number in place of the string could run on from a point in front of it.
  | string => .literal "''"
  | name => .name "a"
  | symbol terminal => .symbol terminal

/-- A filler as a token; it stands nowhere, since parsers do not ask for places. -/
def token (filler : Filler) : Token :=
  -- The category and the text are those of its lexeme.
  ⟨filler.lexeme.word.1, filler.lexeme.word.2, ⟨0, 0⟩⟩

/-- The lexeme of a filler is that of its token. -/
theorem token_lexeme (filler : Filler) : filler.token.lexeme = filler.lexeme := by
  cases filler with
  | symbol terminal =>
    cases terminal with
    | keyword word => rfl
    | mark sign =>
      have found : Mark.ofText? sign.text = some sign := Mark.ofText?_eq_some.2 rfl
      simp [token, lexeme, Lexeme.word, Token.lexeme, found]
  | _ => rfl

end Filler

/-- White space as a token. -/
def Token.blank : Token :=
  -- A single space will do, since a run of white space is one token.
  ⟨.space, " ", ⟨0, 0⟩⟩

/-- Whether white space should come after a token before a filler does. -/
def Token.apart (token : Token) : Bool :=
  -- White space joins white space, and a member must follow its point directly.
  !(token.isSpace || token.isMark .dot)

/-- After white space more of it would be one with it. -/
theorem Token.apart_of_isSpace {token : Token} (space : token.isSpace = true) :
    token.apart = false := by
  rw [apart, space, Bool.true_or, Bool.not_true]

/-- After a point white space would be refused. -/
theorem Token.apart_of_isMark_dot {token : Token} (dot : token.isMark .dot = true) :
    token.apart = false := by
  rw [apart, dot, Bool.or_true, Bool.not_true]

/-- White space, if it is asked for. -/
def padding (spaced : Bool) : List Token :=
  if spaced then [.blank] else []

/-- Fillers as tokens, each with white space after it. -/
def spread (fillers : List Filler) : List Token :=
  fillers.flatMap fun filler => [filler.token, .blank]

/-- Tokens with fillers after them, and white space in between where it should be. -/
def completed (spaced : Bool) (fillers : List Filler) : List Token → List Token
  -- The last token decides, and what came before the first if there is none.
  | [] => padding spaced ++ spread fillers
  | token :: tokens => token :: completed token.apart fillers tokens

/-- A tape of tokens that ends with the end of input, which is a token of it. -/
def feed (tokens : List Token) : Tape :=
  -- A parser that looks at the end of input puts it back, and the tape is as before.
  ⟨tokens ++ [.eof 0], .ok 0⟩

/-- The token that comes first of fillers, given the first of them. -/
def foremost : Option Filler → Token
  -- After the last filler there is the end of input.
  | some filler => filler.token
  | none => .eof 0

/-- Fillers begin with the first of them, or with the end of input. -/
theorem exists_feed_spread (fillers : List Filler) :
    ∃ rest, feed (spread fillers) = ⟨foremost fillers.head? :: rest, .ok 0⟩ := by
  cases fillers with
  | nil => exact ⟨[], rfl⟩
  | cons filler fillers => exact ⟨.blank :: (spread fillers ++ [.eof 0]), rfl⟩

variable {α β : Type} {first : Parsing Tape α} {next? : α → Parsing Tape β}

/-- A parser does not refuse tokens, though it may give up on them. -/
def Accepts (parser : Parsing Tape α) (tokens : List Token) : Prop :=
  ∀ error after, parser (feed tokens) ≠ .error (.refused error) after

/-- A parser reads all of some tokens and asks for more. -/
def Starves (parser : Parsing Tape α) (tokens : List Token) : Prop :=
  -- The fault that cuts the tape short has been met.
  ∃ fault after, parser ⟨tokens, .error fault⟩ = .error (.refused (.lexical fault)) after

section Steps

variable {token : Token} {tokens : List Token} {ending : Except LexError Nat}

namespace Parsing

/-- The first token of a tape is taken, whatever it is. -/
theorem next_bind_cons {rest : Token → Parsing Tape α} :
    (next >>= rest) (⟨token :: tokens, ending⟩ : Tape) = rest token ⟨tokens, ending⟩ := by
  rw [bind_apply]
  rfl

/-- The first token of a tape is taken if it means something. -/
theorem accept?_cons {meaning? : Token → Option α} :
    accept? meaning? (⟨token :: tokens, ending⟩ : Tape) =
      match meaning? token with
      | some meaning => .ok (some meaning) ⟨tokens, ending⟩
      | none => .ok none ⟨token :: tokens, ending⟩ := by
  rw [accept?, next_bind_cons]
  cases meaning? token <;> rfl

/-- The first token of a tape is taken, and refused if it does not mean what is required. -/
theorem require_cons {expected : Expectation} {meaning? : Token → Option α} :
    require expected meaning? (⟨token :: tokens, ending⟩ : Tape) =
      match meaning? token with
      | some meaning => .ok meaning ⟨tokens, ending⟩
      | none => .error (.refused (.unexpected token (some expected))) ⟨tokens, ending⟩ := by
  rw [require, next_bind_cons]
  cases meaning? token <;> rfl

/-- White space at the front of a tape is taken. -/
theorem skipSpace_cons :
    skipSpace (⟨token :: tokens, ending⟩ : Tape) =
      .ok () (if token.isSpace then ⟨tokens, ending⟩ else ⟨token :: tokens, ending⟩) := by
  rw [skipSpace, bind_apply, eat, bind_apply, accept?_cons]
  cases token.isSpace <;> rfl

end Parsing

end Steps

end SelectSql
