import SelectSql.Grammar.Spending
import SelectSql.Proofs.Spelling.Reach

/-!
What a parser has read when it succeeds, as a relation between the lexemes that it found, the value
that it gave and the lexemes that it left.
-/

namespace SelectSql

variable {α β : Type} {lexeme : Lexeme} {lexemes rest : List Lexeme}

/-- Lexemes after the first are proper too. -/
theorem Proper.tail (proper : Proper (lexeme :: lexemes)) : Proper lexemes :=
  proper.2.2

/-- Every success on lexemes gives a value and leaves a rest that are related in a stated way. -/
def Reads (parser : Parsing Lexer α) (lexemes : List Lexeme)
    (result : α → List Lexeme → Prop) : Prop :=
  ∀ lexer fault value after, lexer.Shows lexemes fault → Proper lexemes →
    parser lexer = .ok value after →
    ∃ rest, after.Shows rest fault ∧ Proper rest ∧ result value rest

namespace Reads

open Parsing

variable {parser : Parsing Lexer α} {next? : α → Parsing Lexer β}
  {result middle : α → List Lexeme → Prop} {final : β → List Lexeme → Prop}

/-- Giving a value leaves all lexemes. -/
theorem pure {value : α} (holds : result value lexemes) :
    Reads (Pure.pure value) lexemes result := by
  intro lexer fault given after shown proper run
  cases run
  exact ⟨lexemes, shown, proper, holds⟩

/-- A parser that refuses whatever it finds has no success to describe. -/
theorem unexpected {expected : Expectation} {found : Token} :
    Reads (Parsing.unexpected expected found) lexemes result := by
  intro lexer fault value after _ _ run
  cases run

/-- A parser that gives up has no success to describe. -/
theorem exhausted : Reads Parsing.exhausted lexemes result := by
  intro lexer fault value after _ _ run
  cases run

/-- What is known of a success may be weakened. -/
theorem mono (reads : Reads parser lexemes middle)
    (weaker : ∀ value rest, middle value rest → result value rest) :
    Reads parser lexemes result := by
  intro lexer fault value after shown proper run
  obtain ⟨rest, left, proper', holds⟩ := reads lexer fault value after shown proper run
  exact ⟨rest, left, proper', weaker value rest holds⟩

/-- Only proper lexemes are found. -/
theorem of_proper (reads : Proper lexemes → Reads parser lexemes result) :
    Reads parser lexemes result := by
  intro lexer fault value after shown proper run
  exact reads proper lexer fault value after shown proper run

/-- The second of two parsers finds what the first has left. -/
theorem bind (first : Reads parser lexemes middle)
    (second : ∀ value rest, middle value rest → Reads (next? value) rest final) :
    Reads (parser >>= next?) lexemes final := by
  intro lexer fault value after shown proper run
  rw [bind_apply] at run
  cases between : parser lexer with
  -- If the first parser stops, so do both, and there is no success to describe.
  | error halt after => rw [between] at run; cases run
  | ok given stop =>
    rw [between] at run
    -- What the first has left is shown to the second, and is proper in its turn.
    obtain ⟨rest, left, proper', holds⟩ := first lexer fault given stop shown proper between
    exact second given rest holds stop fault value after left proper' run

/-- A value may be reshaped once it is given. -/
theorem reshape {shape : α → β}
    (reads : Reads parser lexemes fun value rest => final (shape value) rest) :
    Reads (parser >>= fun value => Pure.pure (shape value)) lexemes final :=
  reads.bind fun _ _ holds => pure holds

/-- Taking a token that cannot be the last takes the first lexeme. -/
theorem next_bind {next? : Token → Parsing Lexer β}
    (some : ∀ token rest, lexemes = token.lexeme :: rest → Reads (next? token) rest final)
    (last : ∀ token, token.isEof = true → ∀ lexer value after,
      next? token lexer ≠ .ok value after) :
    Reads (next >>= next?) lexemes final := by
  intro lexer fault value after shown proper run
  rw [bind_apply, next] at run
  cases taken : TokenStream.next lexer with
  | mk outcome stop =>
    rw [taken] at run
    cases outcome with
    | error error => cases run
    | ok token =>
      -- What is taken is the first lexeme, or else the end, and nothing goes on from there.
      rcases shown.of_next taken with ⟨rest, _, rfl, shows⟩ | ⟨ending, _, _⟩
      · exact some token rest rfl stop fault value after shows proper.tail run
      · exact absurd run (last token ending stop value after)

/-- Looking at a token shows the first lexeme, or the end. -/
theorem peek_bind {next? : Token → Parsing Lexer β}
    (seen : ∀ token, (token.isEof = false ∧ lexemes.head? = some token.lexeme) ∨
        (token.isEof = true ∧ lexemes = []) →
      Reads (next? token) lexemes final) :
    Reads (peek >>= next?) lexemes final := by
  intro lexer fault value after shown proper run
  simp only [peek, bind_apply, next, Parsing.push] at run
  cases taken : TokenStream.next lexer with
  | mk outcome stop =>
    rw [taken] at run
    cases outcome with
    | error error => cases run
    | ok token =>
      -- The token goes back, so all that was shown is shown again.
      have back := shown.push taken
      refine seen token ?_ _ fault value after back proper run
      rcases shown.of_next taken with ⟨rest, real, rfl, _⟩ | ⟨ending, rfl, _⟩
      · exact Or.inl ⟨real, rfl⟩
      · exact Or.inr ⟨ending, rfl⟩

/-- A token that means something is taken, and any other is the first still. -/
theorem accept_bind_token {γ : Type} {meaning? : Token → Option γ}
    {next? : Option γ → Parsing Lexer β}
    (real : ∀ token, token.isEof = true → meaning? token = none)
    (met : ∀ token meaning rest, lexemes = token.lexeme :: rest → meaning? token = some meaning →
      Reads (next? (some meaning)) rest final)
    (missed : (∀ lexeme ∈ lexemes.head?, ∃ token : Token,
        token.lexeme = lexeme ∧ meaning? token = none) →
      Reads (next? none) lexemes final) :
    Reads (accept? meaning? >>= next?) lexemes final := by
  intro lexer fault value after shown proper run
  simp only [accept?, bind_apply, next] at run
  cases taken : TokenStream.next lexer with
  | mk outcome stop =>
    rw [taken] at run
    cases outcome with
    | error error => cases run
    | ok token =>
      -- With a meaning the token is gone; without one it goes back.
      cases meant : meaning? token with
      | some meaning =>
        simp only [meant] at run
        rcases shown.of_next taken with ⟨rest, _, rfl, shows⟩ | ⟨ending, _, _⟩
        · exact met token meaning rest rfl meant stop fault value after shows proper.tail run
        · -- The end of input means nothing.
          rw [real token ending] at meant
          cases meant
      | none =>
        simp only [meant, bind_apply, Parsing.push] at run
        -- The same lexemes are shown as before, so the rest starts with all of them.
        have back := shown.push taken
        refine missed ?_ _ fault value after back proper run
        intro lexeme first
        rcases shown.of_next taken with ⟨rest, _, rfl, _⟩ | ⟨_, rfl, _⟩
        · exact ⟨token, by simpa using first, meant⟩
        · cases first

/-- A lexeme that means something is taken, and any other is the first still. -/
theorem accept_bind {γ : Type} {meaning? : Token → Option γ} (means? : Lexeme → Option γ)
    {next? : Option γ → Parsing Lexer β}
    (same : ∀ token, meaning? token = means? token.lexeme) (real : means? .foreign = none)
    (met : ∀ lexeme meaning rest, lexemes = lexeme :: rest → means? lexeme = some meaning →
      Reads (next? (some meaning)) rest final)
    (missed : (∀ lexeme ∈ lexemes.head?, means? lexeme = none) →
      Reads (next? none) lexemes final) :
    Reads (accept? meaning? >>= next?) lexemes final := by
  -- The lexeme of a token settles what it means, so tokens may be left out of account.
  refine accept_bind_token ?_ ?_ ?_
  · intro token ending
    rw [same, Token.lexeme_of_isEof ending, real]
  · intro token meaning rest shape meant
    exact met token.lexeme meaning rest shape ((same token).symm.trans meant)
  · intro none
    refine missed ?_
    intro lexeme first
    obtain ⟨token, rfl, meant⟩ := none lexeme first
    exact (same token).symm.trans meant

/-- A lexeme that passes a test is taken, and any other is the first still. -/
theorem eat_bind {test : Token → Bool} (passes : Lexeme → Bool) {next? : Bool → Parsing Lexer β}
    (same : ∀ token, test token = passes token.lexeme) (real : passes .foreign = false)
    (met : ∀ lexeme rest, lexemes = lexeme :: rest → passes lexeme = true →
      Reads (next? true) rest final)
    (missed : Avoids passes lexemes → Reads (next? false) lexemes final) :
    Reads (eat test >>= next?) lexemes final := by
  -- To pass a test is to mean something, whatever it is.
  unfold eat
  rw [bind_assoc]
  refine accept_bind_token ?_ ?_ ?_
  · intro token ending
    simp [same, Token.lexeme_of_isEof ending, real]
  · intro token meaning rest shape meant
    have passed : passes token.lexeme = true := by
      by_cases tested : test token = true
      · rw [← same, tested]
      · simp [tested] at meant
    exact met token.lexeme rest shape passed
  · intro none
    refine missed ?_
    intro lexeme first
    obtain ⟨token, rfl, meant⟩ := none lexeme first
    by_cases tested : test token = true
    · simp [tested] at meant
    · rw [← same]
      simpa using tested

/-- A keyword is taken if it is first. -/
theorem eatKeyword_bind {word : Keyword} {next? : Bool → Parsing Lexer β}
    (met : ∀ rest, lexemes = .keyword word :: rest → Reads (next? true) rest final)
    (missed : Avoids (· == .keyword word) lexemes → Reads (next? false) lexemes final) :
    Reads (eatKeyword word >>= next?) lexemes final := by
  refine eat_bind (· == .keyword word) (fun token => token.isKeyword_eq word) rfl ?_ missed
  intro lexeme rest shape passed
  obtain rfl := beq_iff_eq.1 passed
  exact met rest shape

/-- A mark is taken if it is first. -/
theorem eatMark_bind {sign : Mark} {next? : Bool → Parsing Lexer β}
    (met : ∀ rest, lexemes = .mark sign :: rest → Reads (next? true) rest final)
    (missed : Avoids (· == .mark sign) lexemes → Reads (next? false) lexemes final) :
    Reads (eatMark sign >>= next?) lexemes final := by
  refine eat_bind (· == .mark sign) (fun token => token.isMark_eq sign) rfl ?_ missed
  intro lexeme rest shape passed
  obtain rfl := beq_iff_eq.1 passed
  exact met rest shape

/-- White space is skipped, and none is left since proper lexemes have no second space. -/
theorem skipSpace : Reads Parsing.skipSpace lexemes fun _ rest => rest = skip lexemes := by
  apply of_proper
  intro proper
  unfold Parsing.skipSpace
  apply eat_bind (· == .space) (fun token => token.isSpace_eq) rfl
  · -- After a space that is taken there is no other, or the lexemes would not be proper.
    intro lexeme rest shape passed
    obtain rfl := beq_iff_eq.1 passed
    subst shape
    apply pure
    rw [skip_space, skip_eq_self (proper.2.1 rfl)]
  · -- Where no space comes first, skipping changes nothing.
    intro avoids
    apply pure
    rw [skip_eq_self]
    intro first
    cases avoids _ first

/-- What follows white space is read after it. -/
theorem skipSpace_bind {next? : Unit → Parsing Lexer β}
    (reads : Reads (next? ()) (skip lexemes) final) :
    Reads (Parsing.skipSpace >>= next?) lexemes final := by
  refine skipSpace.bind ?_
  rintro _ _ rfl
  exact reads

/-- A required lexeme is taken. -/
theorem require_bind {γ : Type} {expected : Expectation} {meaning? : Token → Option γ}
    (means? : Lexeme → Option γ) {next? : γ → Parsing Lexer β}
    (same : ∀ token, meaning? token = means? token.lexeme) (real : means? .foreign = none)
    (met : ∀ lexeme meaning rest, lexemes = lexeme :: rest → means? lexeme = some meaning →
      Reads (next? meaning) rest final) :
    Reads (require expected meaning? >>= next?) lexemes final := by
  unfold require
  rw [bind_assoc]
  -- A token without the meaning is taken as well, but the run ends with it.
  refine next_bind ?_ ?_
  · intro token rest shape
    rw [same]
    cases meant : means? token.lexeme with
    | none =>
      intro lexer fault value after _ _ run
      cases run
    | some meaning => exact met token.lexeme meaning rest shape meant
  · intro token ending lexer value after run
    rw [same, Token.lexeme_of_isEof ending, real] at run
    cases run

/-- A required keyword is taken. -/
theorem requireKeyword_bind {word : Keyword} {next? : Unit → Parsing Lexer β}
    (met : ∀ rest, lexemes = .keyword word :: rest → Reads (next? ()) rest final) :
    Reads (requireKeyword word >>= next?) lexemes final := by
  -- A keyword is what one lexeme alone means.
  refine require_bind (fun lexeme => if lexeme = .keyword word then some () else none) ?_ rfl ?_
  · intro token
    simp [token.isKeyword_eq word]
  · intro lexeme meaning rest shape meant
    split at meant
    · rename_i same
      exact met rest (same ▸ shape)
    · cases meant

/-- A required mark is taken. -/
theorem requireMark_bind {sign : Mark} {next? : Unit → Parsing Lexer β}
    (met : ∀ rest, lexemes = .mark sign :: rest → Reads (next? ()) rest final) :
    Reads (requireMark sign >>= next?) lexemes final := by
  -- A mark is what one lexeme alone means.
  refine require_bind (fun lexeme => if lexeme = .mark sign then some () else none) ?_ rfl ?_
  · intro token
    simp [token.isMark_eq sign]
  · intro lexeme meaning rest shape meant
    split at meant
    · rename_i same
      exact met rest (same ▸ shape)
    · cases meant

/-- A required name is taken, and its text is admitted as one. -/
theorem requireIdentifier_bind {next? : String → Parsing Lexer β}
    (met : ∀ name rest, lexemes = .name name :: rest → IsName name →
      Reads (next? name) rest final) :
    Reads (requireIdentifier >>= next?) lexemes final := by
  apply of_proper
  intro proper
  apply require_bind Lexeme.name? Token.name?_eq rfl
  intro lexeme name rest shape meant
  -- Only a name has a name, and proper lexemes hold none that is not admitted.
  cases lexeme with
  | name text =>
    obtain rfl := Option.some.inj meant
    subst shape
    exact met text rest rfl proper.1
  | _ => cases meant

/-- A closed part is followed by the mark that closes it. -/
theorem closedBy {sign : Mark} (reads : Reads parser lexemes middle) :
    Reads (Parsing.closedBy sign parser) lexemes fun value rest =>
      middle value (.mark sign :: rest) := by
  refine reads.bind ?_
  intro value rest holds
  -- The mark is the first lexeme of what the part has left.
  apply requireMark_bind
  rintro rest rfl
  exact pure holds

/-- A part is read exactly if its keyword is first. -/
theorem after? {word : Keyword} {result : List Lexeme → α → List Lexeme → Prop}
    (reads : ∀ inner, lexemes = .keyword word :: inner → Reads parser inner (result inner)) :
    Reads (Parsing.after? word parser) lexemes fun found rest =>
      match found with
      | none => rest = lexemes ∧ Avoids (· == .keyword word) lexemes
      | some value => ∃ inner, lexemes = .keyword word :: inner ∧ result inner value rest := by
  -- The part is read after the keyword and nowhere else.
  apply eatKeyword_bind
  · intro inner shape
    refine (reads inner shape).bind ?_
    intro value rest holds
    exact pure ⟨inner, shape, holds⟩
  · intro avoids
    exact pure ⟨rfl, avoids⟩

/-- Items that fill their slots make lists that fill theirs, and no comma is left after the last. -/
theorem separated {good : α → Prop} {slots : α → List Slot} {ends : α → List Lexeme → Prop}
    (each : ∀ lexemes, Reads parser lexemes fun value rest =>
      good value ∧ fill (slots value) lexemes = some rest ∧ ends value rest)
    (bound : Nat) (lexemes : List Lexeme) :
    Reads (Parsing.separated parser bound) lexemes fun values rest =>
      (∀ value ∈ values, good value) ∧
        fill (commaSlots [] (values.map slots)) lexemes = some rest ∧
        Avoids (· == .mark .comma) rest ∧ ∃ last, values.getLast? = some last ∧ ends last rest := by
  -- The induction is on the bound: the items after a comma have a smaller one, and other lexemes
  -- before them.
  induction bound generalizing lexemes with
  | zero => exact exhausted
  | succ bound ih =>
    refine (each lexemes).bind ?_
    rintro first rest ⟨holds, filled, ending⟩
    apply eatMark_bind
    · -- A comma is followed by the slots of all the other items.
      rintro after rfl
      refine (ih after).bind ?_
      rintro others rest ⟨hold, filled', avoids, last, isLast, ending'⟩
      cases others with
      -- There is a last item among the others, so they are not none.
      | nil => cases isLast
      | cons second others =>
        refine pure ⟨List.forall_mem_cons.2 ⟨holds, hold⟩, ?_, avoids, last, ?_, ending'⟩
        · rw [List.map_cons, List.map_cons, commaSlots, fill_append_of filled, fill_token]
          exact filled'
        · rw [List.getLast?_cons_cons]
          exact isLast
    · -- Without a comma the first item is also the last.
      intro avoids
      refine pure ⟨by simpa using holds, ?_, avoids, first, rfl, ending⟩
      simpa [commaSlots] using filled

/-- Items that leave no white space behind make lists after which no comma may come. -/
theorem commaList {good : α → Prop} {slots : α → List Slot}
    (each : ∀ lexemes, Reads parser lexemes fun value rest =>
      good value ∧ fill (slots value) lexemes = some rest ∧ skip rest = rest)
    (bound : Nat) (lexemes : List Lexeme) :
    Reads (Parsing.separated parser bound) lexemes fun values rest =>
      (values ≠ [] ∧ ∀ value ∈ values, good value) ∧
        fill (commaSlots noComma (values.map slots)) lexemes = some rest ∧ skip rest = rest := by
  refine (separated each bound lexemes).mono ?_
  rintro values rest ⟨hold, filled, avoids, last, isLast, flush⟩
  have nonempty : values ≠ [] := by
    rintro rfl
    cases isLast
  refine ⟨⟨nonempty, hold⟩, ?_, flush⟩
  -- That no comma follows is asked once, behind the last item.
  rw [commaSlots_append (by simpa using nonempty), fill_append_of filled, noComma,
    fill_notBefore (by rwa [flush]), fill_nil]

end Reads

end SelectSql
