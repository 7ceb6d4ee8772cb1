import SelectSql.Proofs.Pushback

/-!
Looking at the next token. A look changes nothing that can be asked of a lexer afterwards, and what
cannot be read once cannot be read again. A quote that is never closed is the one exception: it
takes the whole text with it, so that the end of input comes after it.
-/

namespace SelectSql

/-- Whether a quote was found that is never closed. -/
def Unclosed : Except LexError Token → Prop
  -- The other fault is a character that begins no token.
  | .error (.unterminatedQuote _ _) => True
  | _ => False

namespace Lexer

/-- The lexer that calls in a row leave. -/
def after (lexer : Lexer) (calls : List LexerCall) : Lexer :=
  -- Each call is made on what the call before has left.
  calls.foldl (fun lexer call => (lexer.answer call).2) lexer

/-- The byte offset at which the text of a lexer ends. -/
def stop (lexer : Lexer) : Nat :=
  -- What was put back is of no text.
  lexer.position + byteLength lexer.rest

/-- What a look at the next token does to a lexer whose text ends at an offset. -/
structure Stays (lexer : Lexer) (stop : Nat) : Prop where
  /-- A look gives what would be taken. -/
  seen : lexer.peek.1 = lexer.next.1
  /-- The same is given after a look, unless a quote is never closed. -/
  again : (lexer.peek.2.peek.1 = lexer.peek.1 ∧ lexer.peek.2.next.1 = lexer.peek.1) ↔
    ¬Unclosed lexer.peek.1
  /-- What cannot be taken cannot be taken again, unless a quote is never closed. -/
  failing : ∀ error, lexer.next.1 = .error error →
    (lexer.next.2.next.1 = .error error ↔ ¬Unclosed (.error error))
  /-- Whatever is asked later is answered as if there had been no look. -/
  unmoved : ¬Unclosed lexer.peek.1 → ∀ calls,
    answersTo Lexer.answer lexer.peek.2 calls = answersTo Lexer.answer lexer calls
  /-- A quote that is never closed leaves nothing, whether it was looked at or to be taken. -/
  emptied : Unclosed lexer.peek.1 → lexer.peek.2 = lexer.next.2 ∧ ∀ calls,
    answersTo Lexer.answer lexer.peek.2 calls = answersTo (TokenList.answer stop) [] calls

/-- Two lexers of which the first has been looked into, maybe before tokens were put back. -/
inductive Looked : Lexer → Lexer → Prop where
  | same (lexer : Lexer) : Looked lexer lexer
  | look {lexer after : Lexer} {token : Token} (taken : lexer.next = (.ok token, after)) :
      Looked (after.push token) lexer
  | push {first second : Lexer} (looked : Looked first second) (token : Token) :
      Looked (first.push token) (second.push token)

variable {lexer first second after : Lexer} {error : LexError} {token : Token}

section Failing

/-- A lexer fails at a character that begins no token and stays there, or at a quote that is never
closed and goes to the end of its text. -/
theorem next_failed (failed : lexer.next = (.error error, after)) :
    (¬Unclosed (.error error) ∧ after = lexer) ∨
      (Unclosed (.error error) ∧ after = ⟨[], lexer.stop, []⟩) := by
  obtain ⟨rest, position, pushed⟩ := lexer
  -- A token that was put back is no failure.
  cases pushed with
  | cons head pushed => cases failed
  | nil =>
    rw [next_eq_scan rfl, scan] at failed
    cases found : readLexeme rest with
    | finished =>
      rw [found] at failed
      cases failed
    | lexeme kind taken rest =>
      rw [found] at failed
      cases failed
    | unclosed delimiter =>
      rw [found] at failed
      cases failed
      exact Or.inr ⟨trivial, rfl⟩
    | unknown =>
      rw [found] at failed
      cases failed
      exact Or.inl ⟨id, rfl⟩

/-- A look that fails is a failure to take. -/
theorem peek_of_failed (failed : lexer.next = (.error error, after)) :
    lexer.peek = (.error error, after) := by
  rw [peek, failed]

/-- A look that succeeds puts back what would be taken. -/
theorem peek_of_taken (taken : lexer.next = (.ok token, after)) :
    lexer.peek = (.ok token, after.push token) := by
  rw [peek, taken]

/-- All tokens cannot be taken where the next one cannot. -/
theorem tokenizeAll_of_failed (failed : lexer.next = (.error error, after)) :
    lexer.tokenizeAll = (.error error, after) := by
  rw [tokenizeAll]
  split
  · -- The first token decides, and there is none.
    rename_i other
    rw [failed] at other
    cases other
    rfl
  · rename_i other
    rw [failed] at other
    cases other

/-- A look gives what would be taken, token or fault. -/
theorem peek_fst (lexer : Lexer) : lexer.peek.1 = lexer.next.1 := by
  rcases taken : lexer.next with ⟨_ | token, after⟩
  · rw [peek_of_failed taken]
  · rw [peek_of_taken taken]

end Failing

section Ending

/-- What is taken from a text leaves its end where it was. -/
theorem stop_next (lexer : Lexer) : lexer.next.2.stop = lexer.stop := by
  obtain ⟨rest, position, pushed⟩ := lexer
  cases pushed with
  | cons head pushed => rfl
  | nil =>
    rw [next_eq_scan rfl, scan]
    cases found : readLexeme rest with
    | finished => rfl
    | lexeme kind taken beyond =>
      -- The token is as much longer as what is behind it is shorter.
      simp only [stop]
      rw [← append_of_readLexeme found, byteLength_append, Nat.add_assoc]
    | unclosed delimiter => rfl
    | unknown => rfl

/-- What is put back leaves the end of the text where it was. -/
theorem stop_push (lexer : Lexer) (token : Token) : (lexer.push token).stop = lexer.stop := rfl

/-- Taking all tokens leaves the end of the text where it was. -/
theorem stop_tokenizeAll (lexer : Lexer) : lexer.tokenizeAll.2.stop = lexer.stop := by
  -- Fewer tokens are left after each that is taken.
  induction size : lexer.unread using Nat.strong_induction_on generalizing lexer with
  | _ size ih =>
    have step := lexer.stop_next
    rcases taken : lexer.next with ⟨error | token, after⟩
    · rw [tokenizeAll_of_failed taken, ← step, taken]
    · rw [taken] at step
      rw [tokenizeAll_of_next taken]
      split
      · exact step
      · rename_i real
        have fewer := unread_next taken
        rw [Token.weight, if_neg real] at fewer
        exact (ih after.unread (by omega) after rfl).trans step

/-- Whatever is asked leaves the end of the text where it was. -/
theorem stop_answer (lexer : Lexer) (call : LexerCall) :
    (lexer.answer call).2.stop = lexer.stop := by
  cases call with
  | next => exact lexer.stop_next
  -- A look takes a token and puts it back, or fails as taking it does.
  | peek =>
    have step := lexer.stop_next
    rw [answer, Prod.map_snd, id]
    rcases taken : lexer.next with ⟨error | token, after⟩
    · rw [peek_of_failed taken, ← step, taken]
    · rw [peek_of_taken taken, stop_push, ← step, taken]
  | push token => exact lexer.stop_push token
  | tokenizeAll => exact lexer.stop_tokenizeAll

/-- Calls in a row leave the end of the text where it was. -/
theorem stop_after (lexer : Lexer) (calls : List LexerCall) :
    (lexer.after calls).stop = lexer.stop := by
  induction calls generalizing lexer with
  | nil => rfl
  | cons call calls ih => exact (ih (lexer.answer call).2).trans (lexer.stop_answer call)

/-- The end of a text is as far from its beginning as it has bytes. -/
theorem stop_ofText (text : String) : (ofText text).stop = text.utf8ByteSize := by
  rw [stop, ofText, Nat.zero_add, byteLength_eq, String.ofList_toList]

end Ending

namespace Looked

/-- The same is taken after a look, and what is left has at most been looked into. -/
theorem next (looked : Looked first second) :
    first.next.1 = second.next.1 ∧ Looked first.next.2 second.next.2 := by
  cases looked with
  | same => exact ⟨rfl, .same _⟩
  | look taken =>
    -- The token that was seen has been put back, and is taken from there.
    rw [next_push, taken]
    exact ⟨rfl, .same _⟩
  | push looked token =>
    rw [next_push, next_push]
    exact ⟨rfl, looked⟩

/-- The same is seen after a look. -/
theorem peek (looked : Looked first second) :
    first.peek.1 = second.peek.1 ∧ Looked first.peek.2 second.peek.2 := by
  obtain ⟨same, follows⟩ := looked.next
  rw [peek_fst, peek_fst]
  refine ⟨same, ?_⟩
  rcases taken : first.next with ⟨error | token, after⟩ <;>
    rcases other : second.next with ⟨fault | twin, beyond⟩ <;>
    rw [taken, other] at same follows <;> cases same
  · rw [peek_of_failed taken, peek_of_failed other]
    exact follows
  · rw [peek_of_taken taken, peek_of_taken other]
    exact follows.push token

/-- The same tokens are taken after a look. -/
theorem tokenizeAll (looked : Looked first second) :
    first.tokenizeAll.1 = second.tokenizeAll.1 ∧
      Looked first.tokenizeAll.2 second.tokenizeAll.2 := by
  -- The first token is the same for both, and it leaves lexers related as these are.
  induction size : second.unread using Nat.strong_induction_on generalizing first second with
  | _ size ih =>
    obtain ⟨same, follows⟩ := looked.next
    rcases taken : first.next with ⟨error | token, after⟩ <;>
      rcases other : second.next with ⟨fault | twin, beyond⟩ <;>
      rw [taken, other] at same follows <;> cases same
    · rw [tokenizeAll_of_failed taken, tokenizeAll_of_failed other]
      exact ⟨rfl, follows⟩
    · rw [tokenizeAll_of_next taken, tokenizeAll_of_next other]
      by_cases ending : token.isEof
      · rw [if_pos ending, if_pos ending]
        exact ⟨rfl, follows⟩
      · have fewer := unread_next other
        rw [Token.weight, if_neg ending] at fewer
        obtain ⟨all, leaves⟩ := ih beyond.unread (by omega) follows rfl
        rw [if_neg ending, if_neg ending, Prod.map_fst, Prod.map_fst, all]
        exact ⟨rfl, leaves⟩

/-- A call is answered alike after a look, and what is left has at most been looked into. -/
theorem answer (looked : Looked first second) (call : LexerCall) :
    (first.answer call).1 = (second.answer call).1 ∧
      Looked (first.answer call).2 (second.answer call).2 := by
  cases call with
  | next => exact ⟨congrArg LexerAnswer.token looked.next.1, looked.next.2⟩
  | peek => exact ⟨congrArg LexerAnswer.token looked.peek.1, looked.peek.2⟩
  | push token => exact ⟨rfl, looked.push token⟩
  | tokenizeAll => exact ⟨congrArg LexerAnswer.tokens looked.tokenizeAll.1, looked.tokenizeAll.2⟩

/-- Calls in a row are answered alike after a look. -/
theorem answersTo (looked : Looked first second) (calls : List LexerCall) :
    answersTo Lexer.answer first calls = SelectSql.answersTo Lexer.answer second calls := by
  induction calls generalizing first second with
  | nil => rfl
  | cons call calls ih =>
    obtain ⟨same, follows⟩ := looked.answer call
    simp only [SelectSql.answersTo]
    rw [same, ih follows]

end Looked

/-- A look at a token changes nothing. -/
theorem stays_of_taken (taken : lexer.next = (.ok token, after)) (stop : Nat) :
    lexer.Stays stop := by
  have looked := peek_of_taken taken
  have alike : Looked lexer.peek.2 lexer := by
    rw [looked]
    exact .look taken
  have kept : ¬Unclosed lexer.peek.1 := by
    rw [looked]
    exact id
  refine ⟨peek_fst lexer, iff_of_true ⟨alike.peek.1, ?_⟩ kept, ?_, fun _ => alike.answersTo,
    fun lost => absurd lost kept⟩
  · rw [alike.next.1, peek_fst]
  · intro error failed
    rw [taken] at failed
    cases failed

/-- A look at a character that begins no token changes nothing, and it is met again and again. -/
theorem stays_of_failed (failed : lexer.next = (.error error, lexer))
    (known : ¬Unclosed (.error error)) (stop : Nat) : lexer.Stays stop := by
  have looked := peek_of_failed failed
  have kept : ¬Unclosed lexer.peek.1 := by
    rw [looked]
    exact known
  refine ⟨peek_fst lexer, iff_of_true ?_ kept, ?_, ?_, fun lost => absurd lost kept⟩
  · rw [looked, looked, failed]
    exact ⟨rfl, rfl⟩
  · intro fault same
    rw [failed] at same ⊢
    cases same
    rw [failed]
    exact iff_of_true rfl known
  · intro _ calls
    rw [looked]

/-- A quote that is never closed is met once, and the end of input after it. -/
theorem stays_of_lost (failed : lexer.next = (.error error, ⟨[], lexer.stop, []⟩))
    (lost : Unclosed (.error error)) : lexer.Stays lexer.stop := by
  have looked := peek_of_failed failed
  have gone : Unclosed lexer.peek.1 := by
    rw [looked]
    exact lost
  have ended : (⟨[], lexer.stop, []⟩ : Lexer).next =
      (.ok (.eof lexer.stop), ⟨[], lexer.stop, []⟩) := rfl
  have lists : (⟨[], lexer.stop, []⟩ : Lexer).Lists lexer.stop [] := ⟨0, .ended ended⟩
  refine ⟨peek_fst lexer, iff_of_false ?_ (not_not_intro gone), ?_, fun kept => absurd gone kept,
    fun _ => ⟨?_, fun calls => ?_⟩⟩
  · -- The end of input is no fault.
    rw [looked, ended]
    rintro ⟨_, same⟩
    cases same
  · intro fault same
    rw [failed] at same ⊢
    cases same
    rw [ended]
    exact iff_of_false nofun (not_not_intro lost)
  · rw [looked, failed]
  · rw [looked]
    exact lists.answersTo calls

/-- A look changes nothing, and neither does a failure, unless a quote is never closed. -/
theorem stays (lexer : Lexer) : lexer.Stays lexer.stop := by
  rcases taken : lexer.next with ⟨error | token, after⟩
  · rcases next_failed taken with ⟨known, still⟩ | ⟨lost, moved⟩
    · rw [still] at taken
      exact stays_of_failed taken known lexer.stop
    · rw [moved] at taken
      exact stays_of_lost taken lost
  · exact stays_of_taken taken lexer.stop

end Lexer

/-- Whatever has been asked of a lexer before, a look at the next token leaves it as it is, and so
does a failure to take one; a quote that is never closed leaves it at the end of its text. -/
theorem looking_stays (text : String) (calls : List LexerCall) :
    ((Lexer.ofText text).after calls).Stays text.utf8ByteSize := by
  -- No call moves the end of the text.
  have ends := (Lexer.ofText text).stop_after calls
  rw [Lexer.stop_ofText] at ends
  rw [← ends]
  exact Lexer.stays _

/-- A look at a quote that is never closed gives the fault once, and then the end of input. -/
example : answersTo Lexer.answer (.ofText "a 'b") [.next, .next, .peek, .peek, .next] =
    [.token (.ok ⟨.identifier, "a", ⟨0, 1⟩⟩), .token (.ok ⟨.space, " ", ⟨1, 2⟩⟩),
      .token (.error (.unterminatedQuote 2 '\'')), .token (.ok (.eof 4)),
      .token (.ok (.eof 4))] := by
  decide +kernel

end SelectSql
