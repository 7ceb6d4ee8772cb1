import SelectSql.Grammar.Spending
import SelectSql.Proofs.Reading.Reads

/-!
What a parser gives on lexemes that are known. The bound on nesting may be too small for the text,
so giving up is left open here; that it never happens is known of the entry points.
-/

namespace SelectSql

variable {α β γ : Type} {lexeme : Lexeme} {lexemes after rest : List Lexeme}

/-- On these lexemes the parser gives this value and leaves this rest, unless it gives up. -/
def Gives (parser : Parsing Lexer α) (lexemes : List Lexeme) (value : α)
    (rest : List Lexeme) : Prop :=
  ∀ lexer, lexer.Shows lexemes none → Proper lexemes →
    (∃ after, parser lexer = .ok value after ∧ after.Shows rest none ∧ Proper rest) ∨
      ∃ after, parser lexer = .error .exhausted after

namespace Gives

open Parsing

variable {parser : Parsing Lexer α} {next? : α → Parsing Lexer β} {value : α} {final : β}

/-- Giving a value leaves all lexemes. -/
theorem pure : Gives (Pure.pure value) lexemes value lexemes := by
  intro lexer shown proper
  exact Or.inl ⟨lexer, rfl, shown, proper⟩

/-- A parser that gives up gives anything. -/
theorem exhausted : Gives Parsing.exhausted lexemes value rest := by
  intro lexer _ _
  exact Or.inr ⟨lexer, rfl⟩

/-- Only proper lexemes are found. -/
theorem of_proper (gives : Proper lexemes → Gives parser lexemes value rest) :
    Gives parser lexemes value rest := by
  intro lexer shown proper
  exact gives proper lexer shown proper

/-- The second of two parsers goes on where the first has stopped. -/
theorem bind (first : Gives parser lexemes value after)
    (second : Gives (next? value) after final rest) :
    Gives (parser >>= next?) lexemes final rest := by
  intro lexer shown proper
  rw [bind_apply]
  rcases first lexer shown proper with ⟨stop, given, left, proper'⟩ | ⟨stop, gaveUp⟩
  · -- The first has stopped somewhere proper, so the second can be asked there.
    rw [given]
    exact second stop left proper'
  · -- Giving up ends both.
    rw [gaveUp]
    exact Or.inr ⟨stop, rfl⟩

/-- A value may be reshaped once it is given. -/
theorem reshape {shape : α → β} (gives : Gives parser lexemes value rest)
    (shaped : shape value = final) :
    Gives (parser >>= fun value => Pure.pure (shape value)) lexemes final rest := by
  subst shaped
  -- Nothing is read after the value.
  exact gives.bind pure

/-- Taking a token takes the first lexeme. -/
theorem next_bind {next? : Token → Parsing Lexer β}
    (some : ∀ token, token.lexeme = lexeme → Gives (next? token) lexemes final rest) :
    Gives (next >>= next?) (lexeme :: lexemes) final rest := by
  intro lexer shown proper
  obtain ⟨token, stop, taken, _, same, left⟩ := shown.next_cons
  -- Where there is a first lexeme, the lexer shows it and does not fail.
  have taken : TokenStream.next lexer = (.ok token, stop) := taken
  rw [bind_apply, next, taken]
  exact some token same stop left proper.tail

/-- A token can be taken, and what it shows can be put back. -/
private theorem taken_of_shows {lexer : Lexer} (shown : lexer.Shows lexemes none) :
    ∃ token stop, TokenStream.next lexer = (.ok token, stop) ∧
      (TokenStream.push stop token).Shows lexemes none ∧
      ((token.isEof = false ∧ lexemes.head? = some token.lexeme) ∨
        (token.isEof = true ∧ lexemes = [])) := by
  -- Without lexemes the end is taken, which is put back like any other token.
  cases lexemes with
  | nil =>
    obtain ⟨token, stop, taken, ending⟩ := shown.next_nil
    exact ⟨token, stop, taken, shown.push taken, Or.inr ⟨ending, rfl⟩⟩
  | cons lexeme lexemes =>
    obtain ⟨token, stop, taken, real, same, _⟩ := shown.next_cons
    exact ⟨token, stop, taken, shown.push taken, Or.inl ⟨real, by rw [same]; rfl⟩⟩

/-- Looking at a token shows the first lexeme, or the end. -/
theorem peek_bind {next? : Token → Parsing Lexer β}
    (seen : ∀ token, (token.isEof = false ∧ lexemes.head? = some token.lexeme) ∨
        (token.isEof = true ∧ lexemes = []) →
      Gives (next? token) lexemes final rest) :
    Gives (peek >>= next?) lexemes final rest := by
  intro lexer shown proper
  obtain ⟨token, stop, taken, back, sees⟩ := taken_of_shows shown
  simp only [peek, bind_apply, next, Parsing.push, taken]
  exact seen token sees _ back proper

/-- Looking at a token shows the first lexeme where there is one. -/
theorem peek_head {next? : Token → Parsing Lexer β} (head : lexemes.head? = some lexeme)
    (seen : ∀ token, token.isEof = false → token.lexeme = lexeme →
      Gives (next? token) lexemes final rest) :
    Gives (peek >>= next?) lexemes final rest := by
  apply peek_bind
  rintro token (⟨real, first⟩ | ⟨_, rfl⟩)
  · exact seen token real (Option.some.inj (first.symm.trans head))
  · cases head

/-- A lexeme that means something is taken. -/
theorem accept_met {meaning? : Token → Option γ} {next? : Option γ → Parsing Lexer β}
    (met : ∀ token, token.lexeme = lexeme → ∃ meaning, meaning? token = some meaning ∧
      Gives (next? (some meaning)) lexemes final rest) :
    Gives (accept? meaning? >>= next?) (lexeme :: lexemes) final rest := by
  -- The token that shows the lexeme is the one whose meaning is asked for.
  unfold accept?
  rw [bind_assoc]
  apply next_bind
  intro token same
  obtain ⟨meaning, meant, gives⟩ := met token same
  rw [meant]
  exact gives

/-- A lexeme without the meaning is left in place. -/
theorem accept_missed {meaning? : Token → Option γ} (passes : Lexeme → Bool)
    {next? : Option γ → Parsing Lexer β}
    (same : ∀ token, (meaning? token).isSome = passes token.lexeme)
    (real : passes .foreign = false) (avoids : Avoids passes lexemes)
    (missed : Gives (next? none) lexemes final rest) :
    Gives (accept? meaning? >>= next?) lexemes final rest := by
  intro lexer shown proper
  obtain ⟨token, stop, taken, back, sees⟩ := taken_of_shows shown
  -- The first lexeme fails, and the end of input shows one that fails too.
  have unmeant : meaning? token = none := by
    have alike := same token
    rcases sees with ⟨_, first⟩ | ⟨ending, _⟩
    · rw [avoids token.lexeme first] at alike
      simpa using alike
    · rw [Token.lexeme_of_isEof ending, real] at alike
      simpa using alike
  -- The token is put back, so the next parser finds the same lexemes.
  simp only [accept?, bind_apply, next, Parsing.push, taken, unmeant]
  exact missed _ back proper

/-- A lexeme that passes a test is taken. -/
theorem eat_met {test : Token → Bool} {next? : Bool → Parsing Lexer β}
    (passes : ∀ token, token.lexeme = lexeme → test token = true)
    (met : Gives (next? true) lexemes final rest) :
    Gives (eat test >>= next?) (lexeme :: lexemes) final rest := by
  -- To pass a test is to mean something, whatever it is.
  unfold eat
  rw [bind_assoc]
  apply accept_met
  intro token same
  exact ⟨token, if_pos (passes token same), met⟩

/-- A lexeme that fails a test is left in place. -/
theorem eat_missed {test : Token → Bool} (passes : Lexeme → Bool) {next? : Bool → Parsing Lexer β}
    (same : ∀ token, test token = passes token.lexeme) (real : passes .foreign = false)
    (avoids : Avoids passes lexemes) (missed : Gives (next? false) lexemes final rest) :
    Gives (eat test >>= next?) lexemes final rest := by
  unfold eat
  rw [bind_assoc]
  -- What fails the test has no meaning.
  apply accept_missed passes ?_ real avoids missed
  intro token
  rw [← same]
  cases test token <;> rfl

/-- A keyword that is first is taken. -/
theorem eatKeyword_met {word : Keyword} {next? : Bool → Parsing Lexer β}
    (met : Gives (next? true) lexemes final rest) :
    Gives (eatKeyword word >>= next?) (.keyword word :: lexemes) final rest := by
  -- A token is known to be a keyword by its lexeme.
  apply eat_met
  · intro token same
    rw [token.isKeyword_eq, same, beq_self_eq_true]
  · exact met

/-- A keyword that is not first is left for later. -/
theorem eatKeyword_missed {word : Keyword} {next? : Bool → Parsing Lexer β}
    (avoids : Avoids (· == .keyword word) lexemes)
    (missed : Gives (next? false) lexemes final rest) :
    Gives (eatKeyword word >>= next?) lexemes final rest :=
  eat_missed (· == .keyword word) (fun token => token.isKeyword_eq word) rfl avoids missed

/-- A mark that is first is taken. -/
theorem eatMark_met {sign : Mark} {next? : Bool → Parsing Lexer β}
    (met : Gives (next? true) lexemes final rest) :
    Gives (eatMark sign >>= next?) (.mark sign :: lexemes) final rest := by
  -- A token is known to be a mark by its lexeme.
  apply eat_met
  · intro token same
    rw [token.isMark_eq, same, beq_self_eq_true]
  · exact met

/-- A mark that is not first is left for later. -/
theorem eatMark_missed {sign : Mark} {next? : Bool → Parsing Lexer β}
    (avoids : Avoids (· == .mark sign) lexemes)
    (missed : Gives (next? false) lexemes final rest) :
    Gives (eatMark sign >>= next?) lexemes final rest :=
  eat_missed (· == .mark sign) (fun token => token.isMark_eq sign) rfl avoids missed

/-- White space is skipped. -/
theorem skipSpace : Gives Parsing.skipSpace lexemes () (skip lexemes) := by
  apply of_proper
  intro proper
  unfold Parsing.skipSpace
  -- Two spaces are never side by side in proper lexemes, so taking one is enough.
  by_cases space : lexemes.head? = some .space
  · obtain ⟨others, rfl⟩ := List.head?_eq_some_iff.1 space
    apply eat_met
    · intro token same
      rw [token.isSpace_eq, same, beq_self_eq_true]
    · rw [skip_space, skip_eq_self (proper.2.1 rfl)]
      exact pure
  · rw [skip_eq_self space]
    apply eat_missed (· == .space) (fun token => token.isSpace_eq) rfl
    · intro lexeme first
      rw [beq_eq_false_iff_ne]
      rintro rfl
      exact space first
    · exact pure

/-- What follows white space is given after it. -/
theorem skipSpace_bind {next? : Unit → Parsing Lexer β}
    (gives : Gives (next? ()) (skip lexemes) final rest) :
    Gives (Parsing.skipSpace >>= next?) lexemes final rest :=
  skipSpace.bind gives

/-- A required lexeme is taken. -/
theorem require_bind {expected : Expectation} {meaning? : Token → Option γ} {meaning : γ}
    {next? : γ → Parsing Lexer β}
    (met : ∀ token, token.lexeme = lexeme → meaning? token = some meaning)
    (gives : Gives (next? meaning) lexemes final rest) :
    Gives (require expected meaning? >>= next?) (lexeme :: lexemes) final rest := by
  unfold require
  rw [bind_assoc]
  apply next_bind
  intro token same
  -- The token is taken in any case, and here it is the right one.
  rw [met token same]
  exact gives

/-- A required keyword is taken. -/
theorem requireKeyword_bind {word : Keyword} {next? : Unit → Parsing Lexer β}
    (gives : Gives (next? ()) lexemes final rest) :
    Gives (requireKeyword word >>= next?) (.keyword word :: lexemes) final rest := by
  apply require_bind ?_ gives
  intro token same
  rw [token.isKeyword_eq, same, beq_self_eq_true, if_pos rfl]

/-- A required mark is taken. -/
theorem requireMark_bind {sign : Mark} {next? : Unit → Parsing Lexer β}
    (gives : Gives (next? ()) lexemes final rest) :
    Gives (requireMark sign >>= next?) (.mark sign :: lexemes) final rest := by
  apply require_bind ?_ gives
  intro token same
  rw [token.isMark_eq, same, beq_self_eq_true, if_pos rfl]

/-- A required name is taken. -/
theorem requireIdentifier_bind {name : String} {next? : String → Parsing Lexer β}
    (gives : Gives (next? name) lexemes final rest) :
    Gives (requireIdentifier >>= next?) (.name name :: lexemes) final rest := by
  apply require_bind ?_ gives
  intro token same
  rw [token.name?_eq, same]
  rfl

/-- A closed part is followed by the mark that closes it. -/
theorem closedBy {sign : Mark} (gives : Gives parser lexemes value (.mark sign :: rest)) :
    Gives (Parsing.closedBy sign parser) lexemes value rest := by
  -- The closing mark is the first of what the part leaves.
  refine gives.bind ?_
  apply requireMark_bind
  exact pure

/-- A part whose keyword is first is given after it. -/
theorem after?_met {word : Keyword} (gives : Gives parser lexemes value rest) :
    Gives (Parsing.after? word parser) (.keyword word :: lexemes) (some value) rest := by
  -- The part is read only once its keyword is gone.
  apply eatKeyword_met
  exact gives.reshape rfl

/-- A part whose keyword is not first is absent. -/
theorem after?_missed {word : Keyword} (avoids : Avoids (· == .keyword word) lexemes) :
    Gives (Parsing.after? word parser) lexemes none lexemes :=
  eatKeyword_missed avoids pure

/-- Items that the slots of a list call for are read one by one. -/
theorem separated {good : α → Prop} {slots : α → List Slot} {ending : List Slot}
    (each : ∀ value lexemes rest, good value → fill (slots value) lexemes = some rest →
      Gives parser lexemes value rest)
    (bound : Nat) (values : List α) (lexemes : List Lexeme)
    (hold : ∀ value ∈ values, good value)
    (ends : ∃ last, values.getLast? = some last ∧ ∀ before after rest,
      fill (slots last) before = some after → fill ending after = some rest →
        rest = after ∧ Avoids (· == .mark .comma) after)
    (filled : fill (commaSlots ending (values.map slots)) lexemes = some rest) :
    Gives (Parsing.separated parser bound) lexemes values rest := by
  -- The induction is on the bound. The items that are left begin after the comma, with a smaller
  -- bound.
  induction bound generalizing values lexemes with
  | zero => exact exhausted
  | succ bound ih =>
    obtain ⟨last, isLast, stops⟩ := ends
    cases values with
    | nil => cases isLast
    | cons first others =>
      have firstHolds := hold first (by simp)
      cases others with
      | nil =>
        obtain rfl := Option.some.inj isLast
        rw [List.map_cons, List.map_nil, commaSlots, fill_append_eq_some] at filled
        obtain ⟨after, firstFilled, ended⟩ := filled
        -- The last item is followed by no comma, and the list ends with it.
        obtain ⟨rfl, noComma⟩ := stops _ _ _ firstFilled ended
        refine (each first lexemes _ firstHolds firstFilled).bind ?_
        exact eatMark_missed noComma pure
      | cons second others =>
        rw [List.map_cons, List.map_cons, commaSlots, fill_append_eq_some] at filled
        obtain ⟨after, firstFilled, following⟩ := filled
        rw [fill_token_eq_some] at following
        -- Between two items the slots call for a comma.
        obtain ⟨inside, rfl, othersFilled⟩ := following
        refine (each first lexemes _ firstHolds firstFilled).bind ?_
        apply eatMark_met
        -- What holds of all items holds of the others, and their last is the last of all.
        have othersHold : ∀ value ∈ second :: others, good value := by
          intro value member
          exact hold value (List.mem_cons_of_mem first member)
        rw [List.getLast?_cons_cons] at isLast
        exact (ih _ inside othersHold ⟨last, isLast, stops⟩ othersFilled).reshape rfl

/-- Items that leave no white space behind are read up to the end of their list. -/
theorem commaList {good : α → Prop} {slots : α → List Slot}
    (each : ∀ value lexemes rest, good value → fill (slots value) lexemes = some rest →
      Gives parser lexemes value rest)
    (flush : ∀ value lexemes rest, fill (slots value) lexemes = some rest → skip rest = rest)
    {bound : Nat} {values : List α} (nonempty : values ≠ []) (hold : ∀ value ∈ values, good value)
    (filled : fill (commaSlots noComma (values.map slots)) lexemes = some rest) :
    Gives (Parsing.separated parser bound) lexemes values rest := by
  refine separated each bound values lexemes hold ?_ filled
  refine ⟨_, List.getLast?_eq_some_getLast nonempty, ?_⟩
  intro before after rest lastFilled ended
  -- The ending looks behind white space, of which the last item has left none.
  obtain ⟨avoids, same⟩ := fill_notBefore_eq_some.1 ended
  rw [flush _ _ _ lastFilled] at avoids
  exact ⟨(Option.some.inj same).symm, avoids⟩

end Gives

end SelectSql
