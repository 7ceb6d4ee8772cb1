import SelectSql.Proofs.Twins.Tape

/-!
A lexer is the list of its tokens. Whatever is taken, looked at or put back, and in whatever order,
the lexer of a text answers as a plain list does that starts as the tokens of the text.
-/

namespace SelectSql

/-- What may be asked of a lexer. -/
inductive LexerCall where
  /-- The next token is taken. -/
  | next
  /-- The next token is looked at. -/
  | peek
  /-- A token is put back, whether or not it was taken before. -/
  | push (token : Token)
  /-- All tokens up to the first end of input are taken. -/
  | tokenizeAll
  deriving DecidableEq, Repr

/-- What is answered to a call. -/
inductive LexerAnswer where
  /-- A token, or the fault that stands in its place. -/
  | token (result : Except LexError Token)
  /-- Nothing, for a token that was put back. -/
  | done
  /-- All tokens, or the fault among them. -/
  | tokens (result : Except LexError (List Token))
  deriving DecidableEq

/-- The answer of a lexer, with the lexer after it. -/
def Lexer.answer (lexer : Lexer) : LexerCall → LexerAnswer × Lexer
  -- A token that is put back is always accepted.
  | .next => lexer.next.map .token id
  | .peek => lexer.peek.map .token id
  | .push token => (.done, lexer.push token)
  | .tokenizeAll => lexer.tokenizeAll.map .tokens id

namespace TokenList

/-- The first token of a list, with those after it. -/
def next (stop : Nat) : List Token → Token × List Token
  -- The end of input comes after the last token, and it comes again and again.
  | [] => (.eof stop, [])
  | token :: tokens => (token, tokens)

/-- The tokens up to the first end of input, with those after it. -/
def takeAll (stop : Nat) : List Token → List Token × List Token
  -- The end of input closes what is taken, also where the list holds none.
  | [] => ([.eof stop], [])
  | token :: tokens =>
    if token.isEof then ([token], tokens) else (takeAll stop tokens).map (token :: ·) id

/-- The answer of a list of tokens, with the list after it. -/
def answer (stop : Nat) (tokens : List Token) : LexerCall → LexerAnswer × List Token
  -- Looking at a token leaves the list as it is, and putting one back makes it longer.
  | .next => (next stop tokens).map (.token <| .ok ·) id
  | .peek => (.token (.ok (next stop tokens).1), tokens)
  | .push token => (.done, token :: tokens)
  | .tokenizeAll => (takeAll stop tokens).map (.tokens <| .ok ·) id

end TokenList

/-- The answers to calls in a row, each of what the call before has left. -/
def answersTo {σ : Type} (answer : σ → LexerCall → LexerAnswer × σ) :
    σ → List LexerCall → List LexerAnswer
  | _, [] => []
  | state, call :: calls =>
    let (given, after) := answer state call
    given :: answersTo answer after calls

/-- A lexer that gives the tokens of a list, and then the end of input at an offset, some number of
times from what was put back and ever again from the text. -/
def Lexer.Lists (lexer : Lexer) (stop : Nat) (tokens : List Token) : Prop :=
  ∃ count, lexer.Holds ⟨tokens ++ List.replicate count (.eof stop), .ok stop⟩

variable {lexer : Lexer} {stop : Nat} {tokens : List Token} {text : String}

/-- The end of input after the last token may be told apart as a token of its own. -/
theorem Lexer.Holds.concat_eof (holds : lexer.Holds ⟨tokens, .ok stop⟩) :
    lexer.Holds ⟨tokens ++ [.eof stop], .ok stop⟩ := by
  generalize same : (⟨tokens, .ok stop⟩ : Tape) = tape at holds
  induction holds generalizing tokens with
  | token taken _ ih =>
    cases same
    exact .token taken (ih rfl)
  | ended taken =>
    cases same
    exact .token taken (.ended taken)
  | failed => cases same

namespace Lexer.Lists

/-- The next token of a lexer is that of its list. -/
theorem next (lists : lexer.Lists stop tokens) : ∃ after,
    lexer.next = (.ok (TokenList.next stop tokens).1, after) ∧
      after.Lists stop (TokenList.next stop tokens).2 := by
  obtain ⟨count, holds⟩ := lists
  cases tokens with
  | cons token tokens =>
    cases holds with
    | token taken holds => exact ⟨_, taken, count, holds⟩
  | nil =>
    -- What was put back may be the end of input too.
    cases count with
    | zero =>
      cases holds with
      | ended taken => exact ⟨_, taken, 0, .ended taken⟩
    | succ count =>
      cases holds with
      | token taken holds => exact ⟨_, taken, count, holds⟩

/-- A token that is put back is the first of the list. -/
theorem push (lists : lexer.Lists stop tokens) (token : Token) :
    (lexer.push token).Lists stop (token :: tokens) := by
  obtain ⟨count, holds⟩ := lists
  exact ⟨count, .token (lexer.next_push token) holds⟩

/-- A token that was looked at is the next one as before. -/
theorem peek (lists : lexer.Lists stop tokens) : ∃ after,
    lexer.peek = (.ok (TokenList.next stop tokens).1, after) ∧ after.Lists stop tokens := by
  obtain ⟨after, taken, follows⟩ := lists.next
  refine ⟨after.push (TokenList.next stop tokens).1, by rw [Lexer.peek, taken], ?_⟩
  cases tokens with
  | cons token tokens => exact follows.push token
  | nil =>
    -- Beyond the last token one more end of input has been put back.
    obtain ⟨count, holds⟩ := follows
    exact ⟨count + 1, .token (after.next_push _) holds⟩

/-- All tokens of a lexer are those of its list. -/
theorem tokenizeAll (lists : lexer.Lists stop tokens) : ∃ after,
    lexer.tokenizeAll = (.ok (TokenList.takeAll stop tokens).1, after) ∧
      after.Lists stop (TokenList.takeAll stop tokens).2 := by
  induction tokens generalizing lexer with
  | nil =>
    obtain ⟨after, taken, follows⟩ := lists.next
    refine ⟨after, ?_, follows⟩
    rw [tokenizeAll_of_next taken]
    rfl
  | cons token tokens ih =>
    obtain ⟨after, taken, follows⟩ := lists.next
    rw [tokenizeAll_of_next taken, TokenList.takeAll]
    -- The first end of input stops both, and any other token is followed by what comes after it.
    by_cases ended : token.isEof
    · rw [if_pos ended, TokenList.next, if_pos ended]
      exact ⟨after, rfl, follows⟩
    · obtain ⟨last, all, leaves⟩ := ih follows
      rw [if_neg ended, TokenList.next, if_neg ended, all]
      exact ⟨last, rfl, leaves⟩

/-- A lexer answers a call as its list does, and gives the tokens of the list after it. -/
theorem answer (lists : lexer.Lists stop tokens) (call : LexerCall) :
    (lexer.answer call).1 = (TokenList.answer stop tokens call).1 ∧
      (lexer.answer call).2.Lists stop (TokenList.answer stop tokens call).2 := by
  -- Each operation has its own lemma, which gives the answer and keeps the tokens listed.
  cases call with
  | next =>
    obtain ⟨after, taken, follows⟩ := lists.next
    simp only [Lexer.answer, taken]
    exact ⟨rfl, follows⟩
  | peek =>
    obtain ⟨after, taken, follows⟩ := lists.peek
    simp only [Lexer.answer, taken]
    exact ⟨rfl, follows⟩
  | push token => exact ⟨rfl, lists.push token⟩
  | tokenizeAll =>
    obtain ⟨after, taken, follows⟩ := lists.tokenizeAll
    simp only [Lexer.answer, taken]
    exact ⟨rfl, follows⟩

/-- A lexer answers calls in a row as its list does. -/
theorem answersTo (lists : lexer.Lists stop tokens) (calls : List LexerCall) :
    answersTo Lexer.answer lexer calls =
      SelectSql.answersTo (TokenList.answer stop) tokens calls := by
  -- Each call leaves a lexer and a list that go together again.
  induction calls generalizing lexer tokens with
  | nil => rfl
  | cons call calls ih =>
    obtain ⟨same, follows⟩ := lists.answer call
    simp only [SelectSql.answersTo]
    rw [same, ih follows]

end Lexer.Lists

/-- The lexer of a text answers calls in a row as the list of its tokens does. -/
theorem answersTo_eq_list (split : tokenize text = .ok tokens) (calls : List LexerCall) :
    answersTo Lexer.answer (.ofText text) calls =
      answersTo (TokenList.answer text.utf8ByteSize) tokens calls := by
  obtain ⟨front, rfl, holds⟩ := exists_holds_of_tokenize split
  have lists : (Lexer.ofText text).Lists text.utf8ByteSize
      (front ++ [.eof text.utf8ByteSize]) := by
    refine ⟨0, ?_⟩
    rw [List.replicate_zero, List.append_nil]
    exact holds.concat_eof
  exact lists.answersTo calls

/-- Tokens of another text that were put back, an end of input among them, come before the rest. -/
theorem answersTo_eq_list_foreign :
    tokenize "a 1" = .ok [⟨.identifier, "a", ⟨0, 1⟩⟩, ⟨.space, " ", ⟨1, 2⟩⟩,
        ⟨.literal, "1", ⟨2, 3⟩⟩, .eof 3] ∧
      answersTo Lexer.answer (.ofText "a 1")
          [.peek, .next, .push (.eof 7), .push ⟨.identifier, "z", ⟨8, 9⟩⟩, .tokenizeAll,
            .tokenizeAll, .next, .tokenizeAll] =
        [.token (.ok ⟨.identifier, "a", ⟨0, 1⟩⟩), .token (.ok ⟨.identifier, "a", ⟨0, 1⟩⟩),
          .done, .done, .tokens (.ok [⟨.identifier, "z", ⟨8, 9⟩⟩, .eof 7]),
          .tokens (.ok [⟨.space, " ", ⟨1, 2⟩⟩, ⟨.literal, "1", ⟨2, 3⟩⟩, .eof 3]),
          .token (.ok (.eof 3)), .tokens (.ok [.eof 3])] := by
  have split : tokenize "a 1" = .ok [⟨.identifier, "a", ⟨0, 1⟩⟩, ⟨.space, " ", ⟨1, 2⟩⟩,
      ⟨.literal, "1", ⟨2, 3⟩⟩, .eof 3] := by decide +kernel
  refine ⟨split, ?_⟩
  rw [answersTo_eq_list split]
  rfl

end SelectSql
