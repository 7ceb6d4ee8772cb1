import SelectSql.Grammar.Entry
import SelectSql.Proofs.Lexical.Scanned
import SelectSql.Proofs.Reading.StatementComplete

/-!
Whole texts. A text is read as a tree exactly if the tree is formed and its spelling takes all the
lexemes of the text.
-/

namespace SelectSql

open Parsing
open Grammar (whole endOfInput rules rules_sound rules_complete)

variable {α : Type} {text : String} {lexemes rest : List Lexeme}

/-- Slots that take all lexemes, up to white space at the end. -/
def Covers (slots : List Slot) (lexemes : List Lexeme) : Prop :=
  fill (slots ++ [.gap]) lexemes = some []

/-- A reading that is no refusal has a value. -/
theorem exists_ok_of_isOk {result : Except ParseError α} (accepted : result.isOk = true) :
    ∃ tree, result = .ok tree := by
  cases result with
  | error error => cases accepted
  | ok tree => exact ⟨tree, rfl⟩

/-- The end of input is found only where white space is all that is left. -/
theorem skip_eq_nil_of_endOfInput {lexer after : Lexer} {fault : Option LexError}
    (shown : lexer.Shows lexemes fault) (proper : Proper lexemes)
    (run : endOfInput lexer = .ok () after) : skip lexemes = [] ∧ fault = none := by
  rw [endOfInput, bind_apply] at run
  cases skipped : skipSpace lexer with
  | error halt stop => rw [skipped] at run; cases run
  | ok _ stop =>
    rw [skipped] at run
    -- Skipping leaves what is shown without its white space.
    obtain ⟨_, left, _, rfl⟩ := Reads.skipSpace lexer fault () stop shown proper skipped
    simp only [bind_apply, next] at run
    cases taken : TokenStream.next stop with
    | mk outcome stop' =>
      rw [taken] at run
      cases outcome with
      | error error => cases run
      | ok token =>
        -- A lexeme would be refused, so the end was taken.
        rcases left.of_next taken with ⟨_, real, _, _⟩ | ⟨_, empty, none⟩
        · simp only [real] at run
          cases run
        · exact ⟨empty, none⟩

/-- The end of input is found where white space is all that is left, unless the parser gives up. -/
theorem endOfInput_of_skip_eq_nil {lexer : Lexer} (shown : lexer.Shows lexemes none)
    (proper : Proper lexemes) (empty : skip lexemes = []) :
    (∃ after, endOfInput lexer = .ok () after) ∨
      ∃ after, endOfInput lexer = .error .exhausted after := by
  rw [endOfInput, bind_apply]
  -- Skipping either leaves nothing or gives up.
  rcases Gives.skipSpace lexer shown proper with ⟨stop, skipped, left, _⟩ | ⟨stop, gaveUp⟩
  · rw [empty] at left
    obtain ⟨token, after, taken, ending⟩ := left.next_nil
    have taken : TokenStream.next stop = (.ok token, after) := taken
    left
    simp only [skipped, bind_apply, next, taken, ending]
    exact ⟨after, rfl⟩
  · rw [gaveUp]
    exact Or.inr ⟨stop, rfl⟩

/-- A finished run gives a value exactly if the parser gives it. -/
theorem Parsing.finish_eq_ok {parser : Parsing Lexer α} {lexer : Lexer} {bound cost : Nat}
    {lasting : parser.Spends bound cost} {few : TokenStream.unread lexer < bound} {value : α} :
    (finish parser lexer lasting few).1 = .ok value ↔ ∃ after, parser lexer = .ok value after := by
  -- The three outcomes of a run are a value, a refusal, and giving up, which the cost rules out.
  unfold finish
  split
  · rename_i given after found
    rw [found]
    constructor
    · intro same
      exact ⟨after, by rw [Except.ok.inj same]⟩
    · rintro ⟨_, same⟩
      cases same
      rfl
  · rename_i error after found
    rw [found]
    constructor
    · intro same
      cases same
    · rintro ⟨_, same⟩
      cases same
  · rename_i after found
    exact absurd (lasting lexer few) (by simp [found])

/-- A text is read whole as a value exactly if the spelling of the value takes all its lexemes. -/
theorem finish_whole_eq_ok {item : Parsing Lexer α} {good : α → Prop} {slots : α → List Slot}
    {bound cost : Nat} {lasting : (whole item).Spends bound cost}
    {few : TokenStream.unread (Lexer.ofText text) < bound} {value : α}
    (reads : ∀ lexemes, Reads item lexemes fun value rest =>
      good value ∧ fill (slots value) lexemes = some rest)
    (gives : ∀ lexemes rest, good value → fill (slots value) lexemes = some rest →
      Gives item lexemes value rest) :
    (finish (whole item) (Lexer.ofText text) lasting few).1 = .ok value ↔
      good value ∧ ∃ lexemes, (Lexer.ofText text).Shows lexemes none ∧
        Covers (slots value) lexemes := by
  rw [finish_eq_ok]
  -- A text has one row of lexemes, which both directions speak of.
  obtain ⟨lexemes, fault, shown, proper⟩ := Lexer.exists_shows text
  constructor
  · rintro ⟨after, run⟩
    -- From the run: the item fills its slots, and at its end only white space is left.
    rw [whole, bind_apply] at run
    cases between : item (Lexer.ofText text) with
    | error halt stop => rw [between] at run; cases run
    | ok given stop =>
      simp only [between, bind_apply] at run
      obtain ⟨rest, left, proper', holds, filled⟩ :=
        reads lexemes _ fault given stop shown proper between
      cases ended : endOfInput stop with
      | error halt stop => rw [ended] at run; cases run
      | ok _ last =>
        rw [ended] at run
        cases run
        -- Having seen the end, the lexer has met no fault.
        obtain ⟨empty, rfl⟩ := skip_eq_nil_of_endOfInput left proper' ended
        refine ⟨holds, lexemes, shown, ?_⟩
        rw [Covers, fill_append_of filled, fill_gap, empty, fill_nil]
  · rintro ⟨holds, others, shown', covers⟩
    -- From the spelling: the same lexemes are shown, and the item is given in front of the white
    -- space.
    obtain ⟨rfl, rfl⟩ := shown.unique shown'
    rw [Covers, fill_append_eq_some] at covers
    obtain ⟨rest, filled, empty⟩ := covers
    have empty : skip rest = [] := Option.some.inj empty
    -- With so large a bound the parser does not give up.
    have never : ∀ after, whole item (Lexer.ofText text) ≠ .error .exhausted after := by
      intro after gaveUp
      have outcome := lasting (Lexer.ofText text) few
      rw [gaveUp] at outcome
      exact outcome
    -- Of the outcomes that giving leaves open, only the value is left.
    rcases gives lexemes rest holds filled _ shown proper with
      ⟨stop, given, left, proper'⟩ | ⟨stop, gaveUp⟩
    · rcases endOfInput_of_skip_eq_nil left proper' empty with ⟨last, ended⟩ | ⟨last, gaveUp⟩
      · refine ⟨last, ?_⟩
        simp only [whole, bind_apply, given, ended]
        rfl
      · refine absurd ?_ (never last)
        simp only [whole, bind_apply, given, gaveUp]
    · refine absurd ?_ (never stop)
      simp only [whole, bind_apply, gaveUp]

/-- A text is an expression exactly if its lexemes spell one. -/
theorem parseExpression_eq_ok {node : Node} :
    parseExpression text = .ok node ↔ Formed .expression node ∧
      ∃ lexemes, (Lexer.ofText text).Shows lexemes none ∧
        Covers (node.padded .expression) lexemes :=
  -- Both halves hold for rules of any bound, and so for the bound of this text.
  finish_whole_eq_ok (Grammar.expression_reads (rules_sound _)) fun _ _ formed filled =>
    Grammar.expression_gives (rules_complete _) ⟨formed, filled⟩

/-- A text is a source of rows exactly if its lexemes spell one. -/
theorem parseSource_eq_ok {node : Node} :
    parseSource text = .ok node ↔ SourceFormed .source node ∧
      ∃ lexemes, (Lexer.ofText text).Shows lexemes none ∧ Covers node.paddedSource lexemes :=
  -- The entry has no check of its own in front of the source.
  finish_whole_eq_ok (Grammar.source_reads (rules_sound _)) fun _ _ formed filled =>
    Grammar.source_gives (rules_complete _) ⟨formed, filled⟩

/-- A statement after white space is read as its slots are filled. -/
theorem spacedSelect_reads (bound : Nat) (lexemes : List Lexeme) :
    Reads (Grammar.spacedSelect (rules bound)) lexemes fun statement rest =>
      SelectFormed statement ∧ fill (.gap :: statement.slots) lexemes = some rest := by
  apply Reads.skipSpace_bind
  exact Grammar.select_reads (rules_sound _) (skip lexemes)

/-- A statement that is looked for first is read as its slots are filled. -/
theorem statement_reads (bound : Nat) (lexemes : List Lexeme) :
    Reads (Grammar.statement (rules bound)) lexemes fun statement rest =>
      SelectFormed statement ∧ fill (.gap :: statement.slots) lexemes = some rest := by
  apply Reads.skipSpace_bind
  apply Reads.peek_bind
  intro token _
  -- Only a `SELECT` is let through to the rule.
  split
  · exact Grammar.select_reads (rules_sound _) (skip lexemes)
  · exact Reads.unexpected

/-- A text is a statement exactly if its lexemes spell one. -/
theorem parseSelect_eq_ok {statement : Select} :
    parseSelect text = .ok statement ↔ SelectFormed statement ∧
      ∃ lexemes, (Lexer.ofText text).Shows lexemes none ∧
        Covers (.gap :: statement.slots) lexemes := by
  have gives : ∀ lexemes rest, SelectFormed statement →
      fill (.gap :: statement.slots) lexemes = some rest →
      Gives (Grammar.spacedSelect (rules (TokenStream.unread (Lexer.ofText text)))) lexemes
        statement rest := by
    intro lexemes rest formed filled
    -- The rule for statements does not skip white space, so the entry does.
    apply Gives.skipSpace_bind
    exact Grammar.select_gives (rules_complete _) formed filled
  exact finish_whole_eq_ok (spacedSelect_reads _) gives

/-- Looking for the `SELECT` first makes no difference to what is read as a statement. -/
theorem parseStatement_eq_ok {statement : Select} :
    parseStatement text = .ok statement ↔ SelectFormed statement ∧
      ∃ lexemes, (Lexer.ofText text).Shows lexemes none ∧
        Covers (.gap :: statement.slots) lexemes := by
  have gives : ∀ lexemes rest, SelectFormed statement →
      fill (.gap :: statement.slots) lexemes = some rest →
      Gives (Grammar.statement (rules (TokenStream.unread (Lexer.ofText text)))) lexemes
        statement rest := by
    intro lexemes rest formed filled
    apply Gives.skipSpace_bind
    -- What fills the slots of a statement begins with a `SELECT`, so the look in front is passed.
    have begun := filled
    rw [fill_gap, Select.slots_eq, fill_token_eq_some] at begun
    obtain ⟨inside, shape, _⟩ := begun
    apply Gives.peek_head (by rw [shape, List.head?_cons])
    intro token _ first
    rw [token.isKeyword_eq, first]
    exact Grammar.select_gives (rules_complete _) formed filled
  exact finish_whole_eq_ok (statement_reads _) gives

end SelectSql
