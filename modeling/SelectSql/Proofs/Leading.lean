import SelectSql.Proofs.Reuse

/-!
The two ways to read a statement. Whether the leading `SELECT` is looked at or taken outright makes
no difference to the result. It makes one to what is left only where another token stands in its
place, which stays for whoever reads next or is lost.
-/

namespace SelectSql

open Grammar (rules whole)
open TokenStream (unread)

/-- The token at which a statement begins, with the lexer after it. -/
def Lexer.lead (lexer : Lexer) : Except LexError Token × Lexer :=
  -- A run of white space is one token, so at most one is passed over.
  match lexer.next with
  | (.ok token, after) => if token.isSpace then after.next else (.ok token, after)
  | (.error error, after) => (.error error, after)

/-- How the two ways to read a statement compare from the state that a lexer is in. -/
structure Lexer.ReadsAlike (lexer : Lexer) : Prop where
  /-- Both give the same statement, or refuse the text for the same reason. -/
  result : (readStatement lexer).1 = (readSelect lexer).1
  /-- Whatever is called later gives the same after both, unless the leading keyword is missing. -/
  later : (∀ found after, lexer.lead = (.ok found, after) → found.isKeyword .select = true) →
    ∀ entries, (readStatement lexer).2.results entries = (readSelect lexer).2.results entries
  /-- Another token in its place is refused, which the one leaves to be read and the other takes. -/
  misled : ∀ found after, lexer.lead = (.ok found, after) → found.isKeyword .select = false →
    (readStatement lexer).1 = .error (.unexpected found (some (.keyword .select))) ∧
      (readStatement lexer).2.next = (.ok found, after) ∧ (readSelect lexer).2 = after

variable {lexer other after : Lexer} {token found : Token} {error : LexError}
  {inner : Grammar.Rules Lexer}

namespace Parsing

variable {α : Type}

/-- A token is taken as the lexer gives it. -/
theorem next_of_taken (taken : lexer.next = (.ok token, after)) : next lexer = .ok token after := by
  have given : TokenStream.next lexer = (.ok token, after) := taken
  rw [next, given]

/-- What the lexer cannot read is refused. -/
theorem next_of_failed (failed : lexer.next = (.error error, after)) :
    next lexer = .error (.refused (.lexical error)) after := by
  have given : TokenStream.next lexer = (.error error, after) := failed
  rw [next, given]

/-- A token that is looked at is put back. -/
theorem peek_of_next (taken : lexer.next = (.ok token, after)) :
    peek lexer = .ok token (after.push token) := by
  rw [peek, bind_of_ok (next_of_taken taken)]
  rfl

/-- What cannot be read cannot be looked at. -/
theorem peek_of_next_failed (failed : lexer.next = (.error error, after)) :
    peek lexer = .error (.refused (.lexical error)) after := by
  rw [peek, bind_of_error (next_of_failed failed)]

/-- Skipping white space comes to where a statement begins, or to what cannot be read. -/
theorem skipSpace_lead (lexer : Lexer) :
    (∃ opened, skipSpace lexer = .ok () opened ∧ opened.next = lexer.lead) ∨
      ∃ error after, lexer.lead = (.error error, after) ∧
        skipSpace lexer = .error (.refused (.lexical error)) after := by
  rw [Lexer.lead, skipSpace, eat, accept?, bind_apply, bind_apply, bind_apply]
  -- One token is taken, and whether it is white space decides what the lexer meets next.
  rcases taken : lexer.next with ⟨error | token, after⟩
  · rw [next_of_failed taken]
    exact Or.inr ⟨error, after, rfl, rfl⟩
  · rw [next_of_taken taken]
    cases space : token.isSpace with
    | true =>
      simp only [space, if_true]
      exact Or.inl ⟨after, rfl, rfl⟩
    | false =>
      -- Anything but white space was put back, so it is the next token again.
      simp only [space, Bool.false_eq_true, if_false]
      exact Or.inl ⟨after.push token, rfl, after.next_push token⟩

/-- A run that comes to an end has one result only. -/
theorem ranTo_injective {first second : Except ParseError α × Lexer}
    (same : ranTo first = ranTo second) : first = second := by
  rcases first with ⟨_ | _, _⟩ <;> rcases second with ⟨_ | _, _⟩ <;> cases same <;> rfl

end Parsing

namespace Grammar

open Parsing

/-- A statement depends on a lexer only by what comes next. -/
theorem select_congr (same : lexer.next = other.next) :
    select inner lexer = select inner other := by
  have given : TokenStream.next lexer = TokenStream.next other := same
  -- The keyword is the first that is taken, and all that follows goes on from what it leaves.
  have begun : next lexer = next other := by rw [next, next, given]
  rw [select, bind_apply, bind_apply, requireKeyword, require, bind_apply, bind_apply, begun]

/-- No statement is read from what the lexer cannot read. -/
theorem select_of_failed (failed : lexer.next = (.error error, after)) :
    select inner lexer = .error (.refused (.lexical error)) after := by
  rw [select, bind_apply, requireKeyword, require, bind_of_error (next_of_failed failed)]

/-- No statement is read from another token than its keyword, and that token is lost. -/
theorem select_of_other (taken : lexer.next = (.ok found, after))
    (unled : found.isKeyword .select = false) :
    select inner lexer =
      .error (.refused (.unexpected found (some (.keyword .select)))) after := by
  rw [select, bind_apply, requireKeyword, require, bind_of_ok (next_of_taken taken)]
  simp only [unled, Bool.false_eq_true, if_false]
  rfl

/-- Looking at the keyword first changes nothing where the keyword is found or nothing can be. -/
theorem statement_eq_spacedSelect
    (led : ∀ found after, lexer.lead = (.ok found, after) → found.isKeyword .select = true) :
    statement inner lexer = spacedSelect inner lexer := by
  rw [statement, spacedSelect]
  -- White space is skipped in both ways, so both fail there or neither does.
  rcases skipSpace_lead lexer with ⟨opened, skipped, next⟩ | ⟨error, after, _, skipped⟩
  · rw [bind_of_ok skipped, bind_of_ok skipped]
    rcases lead : lexer.lead with ⟨error | found, after⟩
    · rw [lead] at next
      -- What cannot be read is reported by the look at it and by the attempt to take it.
      rw [bind_of_error (peek_of_next_failed next), select_of_failed next]
    · rw [lead] at next
      rw [bind_of_ok (peek_of_next next), if_pos (led found after lead)]
      -- The keyword was put back, and is taken from there.
      exact select_congr ((after.next_push found).trans next.symm)
  · rw [bind_of_error skipped, bind_of_error skipped]

/-- Another token in the place of the keyword is put back, or is lost if it was not looked at. -/
theorem statement_of_other (lead : lexer.lead = (.ok found, after))
    (unled : found.isKeyword .select = false) :
    statement inner lexer =
        .error (.refused (.unexpected found (some (.keyword .select)))) (after.push found) ∧
      spacedSelect inner lexer =
        .error (.refused (.unexpected found (some (.keyword .select)))) after := by
  rw [statement, spacedSelect]
  rcases skipSpace_lead lexer with ⟨opened, skipped, next⟩ | ⟨error, beyond, failed, _⟩
  · rw [lead] at next
    rw [bind_of_ok skipped, bind_of_ok skipped, bind_of_ok (peek_of_next next),
      if_neg (ne_true_of_eq_false unled)]
    -- The look puts the token back before it is refused, and the attempt to take it does not.
    exact ⟨rfl, select_of_other next unled⟩
  · -- There is a token in the place, so nothing failed before it.
    rw [lead] at failed
    cases failed

end Grammar

section Reading

/-- Reading a statement is finished with what its run comes to. -/
theorem ranTo_readStatement (lexer : Lexer) : Parsing.ranTo (readStatement lexer) =
    whole (Grammar.statement (rules (unread lexer))) lexer :=
  (Parsing.eq_ranTo_finish _ _).symm

/-- Reading a statement outright is finished with what its run comes to. -/
theorem ranTo_readSelect (lexer : Lexer) : Parsing.ranTo (readSelect lexer) =
    whole (Grammar.spacedSelect (rules (unread lexer))) lexer :=
  (Parsing.eq_ranTo_finish _ _).symm

/-- Both ways give and leave the same where the keyword is found or nothing can be. -/
theorem readStatement_eq_readSelect
    (led : ∀ found after, lexer.lead = (.ok found, after) → found.isKeyword .select = true) :
    readStatement lexer = readSelect lexer := by
  apply Parsing.ranTo_injective
  rw [ranTo_readStatement, ranTo_readSelect, whole, whole, Parsing.bind_apply, Parsing.bind_apply,
    Grammar.statement_eq_spacedSelect led]

/-- Both ways refuse another token in the place of the keyword, and only the one keeps it. -/
theorem read_of_other (lead : lexer.lead = (.ok found, after))
    (unled : found.isKeyword .select = false) :
    readStatement lexer =
        (.error (.unexpected found (some (.keyword .select))), after.push found) ∧
      readSelect lexer = (.error (.unexpected found (some (.keyword .select))), after) := by
  -- Neither run goes on after the refusal, so what it leaves is what is left in the end.
  obtain ⟨kept, lost⟩ := Grammar.statement_of_other lead unled
  constructor
  · apply Parsing.ranTo_injective
    rw [ranTo_readStatement, whole, Parsing.bind_of_error kept]
    rfl
  · apply Parsing.ranTo_injective
    rw [ranTo_readSelect, whole, Parsing.bind_of_error lost]
    rfl

end Reading

/-- From every state of a lexer the two ways to read a statement give the same, and leave what gives
the same later; but of a token that stands in the place of `SELECT` the one leaves what the other
takes. -/
theorem statements_read_alike (lexer : Lexer) : lexer.ReadsAlike := by
  refine ⟨?_, fun led entries => ?_, fun found after lead unled => ?_⟩
  · -- Either the two ways are one, or both refuse the token that is found.
    by_cases led : ∀ found after, lexer.lead = (.ok found, after) → found.isKeyword .select = true
    · rw [readStatement_eq_readSelect led]
    · simp only [not_forall] at led
      obtain ⟨found, after, lead, unled⟩ := led
      obtain ⟨kept, lost⟩ := read_of_other lead (Bool.eq_false_iff.2 unled)
      rw [kept, lost]
  · rw [readStatement_eq_readSelect led]
  · -- The token that was kept is the next one, and after it comes what the other way has left.
    obtain ⟨kept, lost⟩ := read_of_other lead unled
    rw [kept, lost]
    exact ⟨rfl, after.next_push found, rfl⟩

/-- What stands in the place of a statement is met again after the one way, and not after the
other. -/
example : ((Lexer.ofText "1").results [.statement, .select]).map refusedAt? = [some 0, some 0] ∧
    ((Lexer.ofText "1").results [.select, .statement]).map refusedAt? = [some 0, some 1] := by
  decide +kernel

end SelectSql
