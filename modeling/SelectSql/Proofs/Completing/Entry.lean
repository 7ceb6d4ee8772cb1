import SelectSql.Proofs.Completing.Grammar
import SelectSql.Proofs.Twins.Entry

/-!
Completing whole texts. Wherever one of the ways to read a text asks for more tokens, there are
fillers with which it comes to an end.
-/

namespace SelectSql

open Grammar (rules)

variable {α β : Type} {own : List Filler} {follow : List (Option Filler)} {trails : List Bool}
  {starving : Parsing Tape α} {parser : Family α} {token : Token} {tokens : List Token}

/-- Before the end of input a tape asks for more only after white space that ends it. -/
theorem isSpace_of_starves_endOfInput (starves : Starves Grammar.endOfInput (token :: tokens)) :
    token.isSpace = true ∧ tokens = [] := by
  obtain ⟨fault, after, run⟩ := starves
  rw [Grammar.endOfInput, Parsing.bind_apply, Parsing.skipSpace_cons] at run
  -- Any other token is refused, or is the end itself, and so is what comes after white space.
  cases space : token.isSpace with
  | false =>
    simp only [space, Bool.false_eq_true, if_false, Parsing.next_bind_cons] at run
    cases ended : token.isEof <;> rw [ended] at run <;> cases run
  | true =>
    cases tokens with
    | nil => exact ⟨rfl, rfl⟩
    | cons last tokens =>
      simp only [space, if_true, Parsing.next_bind_cons] at run
      cases ended : last.isEof <;> rw [ended] at run <;> cases run

/-- The end of input needs no fillers, and white space alone may stand before it. -/
theorem Concludes.endOfInput (shape : α → β) (ends : none ∈ follow) :
    Concludes [] (fun value => Grammar.endOfInput >>= fun _ => pure (shape value))
      (fun value _ => Grammar.endOfInput >>= fun _ => pure (shape value)) follow trails where
  head := ends
  accepts value bound spaced _ := by
    cases spaced <;> rintro error after ⟨⟩
  completable value token tokens starves := by
    obtain ⟨fault, after, run⟩ := starves
    -- Giving a value cannot starve, so it was the look for the end that did.
    have starves : Starves Grammar.endOfInput (token :: tokens) := by
      rw [Parsing.bind_apply] at run
      refine ⟨fault, after, ?_⟩
      generalize Grammar.endOfInput (⟨token :: tokens, .error fault⟩ : Tape) = outcome at run ⊢
      cases outcome with
      | ok given after => cases run
      | error halt after =>
        cases run
        rfl
    -- What is left of the text is white space, and no filler is needed after it.
    obtain ⟨space, rfl⟩ := isSpace_of_starves_endOfInput starves
    refine ⟨[], fun _ error after => ?_⟩
    show (Grammar.endOfInput >>= fun _ => pure (shape value)) (feed (token :: completed _ _ _)) ≠ _
    rw [Grammar.endOfInput, bind_assoc, Parsing.bind_apply, Token.apart_of_isSpace space, feed,
      List.cons_append, Parsing.skipSpace_cons, space]
    rintro ⟨⟩

/-- What is read as a whole is completed, also before its first token. -/
theorem Steady.whole (steady : Steady own either starving parser follow trails)
    (ends : none ∈ follow) (shape : α → β)
    (starves : Starves (Grammar.whole starving >>= fun value => Pure.pure (shape value)) tokens) :
    ∃ fillers, ∀ bound, Accepts (Grammar.whole (parser bound) >>= fun value =>
      Pure.pure (shape value)) (completed false fillers tokens) := by
  simp only [Grammar.whole, bind_assoc, pure_bind] at starves ⊢
  -- The item is followed by the end of input, before which no filler is left over.
  exact steady.grow (mem_either false) (.endOfInput shape ends) starves

/-- The four ways to read are completed wherever they starve, whatever the bounds on nesting. -/
theorem Entry.exists_accepts (entry : Entry) {most : Nat}
    (starves : Starves (entry.parser (rules most)) tokens) :
    ∃ fillers, ∀ bound, Accepts (entry.parser (rules bound)) (completed false fillers tokens) := by
  have nested : Completing (rules most) fun bound => rules bound := .nested most id
  -- An expression or a source is not reshaped, which is to be reshaped as it is.
  have unshaped : ∀ item : Parsing Tape Node, (item >>= fun tree => pure (id tree)) = item :=
    fun item => bind_pure item
  -- A statement is reshaped into a tree, and the two other trees are given as they are.
  cases entry with
  | statement =>
    exact (Steady.statement nested).whole (List.mem_cons_self ..) Node.select starves
  | select =>
    exact (Steady.spacedSelect nested).whole (List.mem_cons_self ..) Node.select starves
  | expression =>
    simp only [Entry.parser] at starves ⊢
    rw [← unshaped (Grammar.whole _)] at starves
    simpa only [unshaped] using
      (Steady.expression nested).whole (List.mem_cons_self ..) id starves
  | source =>
    simp only [Entry.parser] at starves ⊢
    rw [← unshaped (Grammar.whole _)] at starves
    simpa only [unshaped] using
      (Steady.source nested).whole (List.mem_cons_self ..) id starves

end SelectSql
