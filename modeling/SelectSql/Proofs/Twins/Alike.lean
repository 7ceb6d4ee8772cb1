import Mathlib.Data.Nat.Basic
import SelectSql.Grammar.Spending
import SelectSql.Proofs.Lexical.Meaning

/-!
Two runs of a parser side by side. A parser asks no more of a token than what it means, so two
streams that stay in step are taken apart in the same way, whatever the bounds on nesting.
-/

namespace SelectSql

/-- Tokens that no rule of the grammar tells apart. -/
structure Token.Like (token other : Token) : Prop where
  /-- Both are of one category. -/
  kind : token.kind = other.kind
  /-- Both say the same. -/
  lexeme : token.lexeme = other.lexeme

open TokenStream (push)

/-- Two streams that are read in step, each pair of states at a stage that is never gone back on. -/
structure Twins (Stage σ τ : Type) [Preorder Stage] [TokenStream σ] [TokenStream τ] where
  /-- The streams are at a stage. -/
  streams : Stage → σ → τ → Prop
  /-- The streams were left at a stage by a refusal, which may be a fault. -/
  left : Stage → σ → τ → Prop
  /-- The tokens have been seen at a stage, one in each stream. -/
  tokens : Stage → Token → Token → Prop
  /-- The faults have stopped the streams at a stage. -/
  faults : Stage → LexError → LexError → Prop
  /-- No token is left at a stage. -/
  ended : Stage → Prop
  /-- The second stream may be stopped by a fault where the first goes on. -/
  excused : LexError → Prop
  /-- Tokens seen together are alike. -/
  like : ∀ {stage token other}, tokens stage token other → token.Like other
  /-- A refusal may leave the streams wherever they are. -/
  leave : ∀ {stage stream twin}, streams stage stream twin → left stage stream twin
  /-- Tokens once seen have been seen at every later stage. -/
  kept : ∀ {stage later token other}, stage ≤ later → tokens stage token other →
    tokens later token other
  /-- Taking a token leads to a later stage, and putting it back leads back. -/
  next : ∀ {stage stream twin}, streams stage stream twin →
    match TokenStream.next stream, TokenStream.next twin with
    | (.ok token, after), (.ok other, beyond) =>
      tokens stage token other ∧ streams stage (push after token) (push beyond other) ∧
        ∃ later, stage ≤ later ∧ streams later after beyond ∧ (token.isEof = true → ended later)
    | (.error error, after), (.error fault, beyond) =>
      (∃ later, stage ≤ later ∧ left later after beyond ∧ faults later error fault) ∨
        excused fault
    | (.ok _, _), (.error fault, _) => excused fault
    | (.error _, _), (.ok _, _) => False

variable {Stage σ τ α β γ δ : Type} [Preorder Stage] [TokenStream σ] [TokenStream τ]

namespace Twins

variable {twins : Twins Stage σ τ} {stage later : Stage}

/-- Refusals for the same reason, at tokens or faults seen together. -/
def Refusals (twins : Twins Stage σ τ) (stage : Stage) : ParseError → ParseError → Prop
  -- What was expected comes from the grammar, so it is the same.
  | .lexical error, .lexical fault => twins.faults stage error fault
  | .unexpected token expected, .unexpected other wanted =>
    twins.tokens stage token other ∧ expected = wanted
  | .trailing token, .trailing other => twins.tokens stage token other
  | _, _ => False

/-- Outcomes of two runs in step, unless one of them gave up or was stopped by an excused fault. -/
inductive Agree (twins : Twins Stage σ τ) (stage : Stage) (result : Stage → α → β → Prop) :
    EStateM.Result Halt σ α → EStateM.Result Halt τ β → Prop where
  | ok {later : Stage} {value : α} {other : β} {stream : σ} {twin : τ} (after : stage ≤ later)
      (streams : twins.streams later stream twin) (holds : result later value other) :
      Agree twins stage result (.ok value stream) (.ok other twin)
  | refused {later : Stage} {error fault : ParseError} {stream : σ} {twin : τ}
      (after : stage ≤ later) (left : twins.left later stream twin)
      (refusals : twins.Refusals later error fault) :
      Agree twins stage result (.error (.refused error) stream) (.error (.refused fault) twin)
  | firstExhausted {stream : σ} {outcome : EStateM.Result Halt τ β} :
      Agree twins stage result (.error .exhausted stream) outcome
  | secondExhausted {outcome : EStateM.Result Halt σ α} {twin : τ} :
      Agree twins stage result outcome (.error .exhausted twin)
  | excused {outcome : EStateM.Result Halt σ α} {fault : LexError} {twin : τ}
      (excused : twins.excused fault) :
      Agree twins stage result outcome (.error (.refused (.lexical fault)) twin)

/-- Parsers whose runs stay in step from a stage on, with results related in a stated way. -/
def AlikeAt (twins : Twins Stage σ τ) (stage : Stage) (result : Stage → α → β → Prop)
    (parser : Parsing σ α) (other : Parsing τ β) : Prop :=
  ∀ stream twin, twins.streams stage stream twin →
    twins.Agree stage result (parser stream) (other twin)

/-- Parsers whose runs stay in step from every stage on, and give the same. -/
def Alike (twins : Twins Stage σ τ) (parser : Parsing σ α) (other : Parsing τ α) : Prop :=
  ∀ stage, twins.AlikeAt stage (fun _ => Eq) parser other

section Steps

variable {result middle : Stage → α → β → Prop} {final : Stage → γ → δ → Prop}
  {parser : Parsing σ α} {other : Parsing τ β} {next? : α → Parsing σ γ} {then? : β → Parsing τ δ}

/-- Outcomes at a later stage are outcomes at every stage before. -/
theorem Agree.earlier {first : EStateM.Result Halt σ α} {second : EStateM.Result Halt τ β}
    (agree : twins.Agree later result first second) (after : stage ≤ later) :
    twins.Agree stage result first second := by
  cases agree with
  | ok beyond streams holds => exact .ok (le_trans after beyond) streams holds
  | refused beyond left refusals => exact .refused (le_trans after beyond) left refusals
  | firstExhausted => exact .firstExhausted
  | secondExhausted => exact .secondExhausted
  | excused excused => exact .excused excused

/-- What is known of results may be weakened. -/
theorem AlikeAt.mono (alike : twins.AlikeAt stage middle parser other)
    (weaker : ∀ later value twin, middle later value twin → result later value twin) :
    twins.AlikeAt stage result parser other := by
  intro stream twin streams
  have agree := alike stream twin streams
  -- Only an outcome with values says anything of results, so the other cases stay as they are.
  generalize parser stream = outcome at agree ⊢
  generalize other twin = ending at agree ⊢
  cases agree with
  | ok after streams holds => exact .ok after streams (weaker _ _ _ holds)
  | refused after left refusals => exact .refused after left refusals
  | firstExhausted => exact .firstExhausted
  | secondExhausted => exact .secondExhausted
  | excused excused => exact .excused excused

/-- Giving values leaves the streams in step. -/
theorem AlikeAt.pure {value : α} {other : β} (holds : result stage value other) :
    twins.AlikeAt stage result (Pure.pure value) (Pure.pure other) :=
  fun _ _ streams => .ok (le_refl stage) streams holds

/-- Refusing texts because of tokens seen together leaves the streams in step. -/
theorem AlikeAt.unexpected {expected : Expectation} {token twin : Token}
    (seen : twins.tokens stage token twin) :
    twins.AlikeAt stage result (Parsing.unexpected expected token)
      (Parsing.unexpected expected twin) :=
  fun _ _ streams => .refused (le_refl stage) (twins.leave streams) ⟨seen, rfl⟩

/-- The second of two parsers goes on in step from wherever the first has come. -/
theorem AlikeAt.bind (first : twins.AlikeAt stage middle parser other)
    (second : ∀ later value twin, stage ≤ later → middle later value twin →
      twins.AlikeAt later final (next? value) (then? twin)) :
    twins.AlikeAt stage final (parser >>= next?) (other >>= then?) := by
  intro stream twin streams
  have agree := first stream twin streams
  rw [Parsing.bind_apply, Parsing.bind_apply]
  -- An outcome that ends the first run ends both.
  generalize parser stream = outcome at agree
  generalize other twin = ending at agree
  cases agree with
  -- The second parsers start where the first ones stopped, which is no earlier than the stage.
  | ok after streams holds => exact (second _ _ _ after holds _ _ streams).earlier after
  | refused after left refusals => exact .refused after left refusals
  | firstExhausted => exact .firstExhausted
  -- The first run may still go on here. What it does is never asked about.
  | secondExhausted => cases outcome <;> exact .secondExhausted
  | excused excused => cases outcome <;> exact .excused excused

/-- Taking a token keeps step where both the streams after it and those before it go on. -/
theorem AlikeAt.next_bind {next? : Token → Parsing σ γ} {then? : Token → Parsing τ δ}
    (goes : ∀ token other after beyond later, twins.tokens stage token other →
      twins.streams stage (push after token) (push beyond other) → stage ≤ later →
      twins.streams later after beyond → (token.isEof = true → twins.ended later) →
      twins.Agree stage final (next? token after) (then? other beyond)) :
    twins.AlikeAt stage final (Parsing.next >>= next?) (Parsing.next >>= then?) := by
  intro stream twin streams
  have step := twins.next streams
  simp only [Parsing.bind_apply, Parsing.next]
  generalize TokenStream.next stream = first at step ⊢
  generalize TokenStream.next twin = second at step ⊢
  -- Faults end both runs, and an excused one ends the second.
  rcases first with ⟨error | token, after⟩ <;> rcases second with ⟨fault | other, beyond⟩
  · rcases step with ⟨later, follows, left, faults⟩ | excused
    · exact .refused follows left faults
    · exact .excused excused
  · -- A fault in the first stream alone is ruled out.
    exact step.elim
  · exact .excused step
  · obtain ⟨seen, back, later, follows, streams, ended⟩ := step
    exact goes token other after beyond later seen back follows streams ended

/-- Tokens are taken in step. -/
theorem AlikeAt.next : twins.AlikeAt stage
    (fun later token other => twins.tokens later token other ∧
      (token.isEof = true → twins.ended later)) Parsing.next Parsing.next := by
  -- Taking a token and giving it is a case of taking it and going on.
  suffices taken : twins.AlikeAt stage (fun later token other => twins.tokens later token other ∧
      (token.isEof = true → twins.ended later)) (Parsing.next >>= Pure.pure)
      (Parsing.next >>= Pure.pure) by
    simpa only [bind_pure] using taken
  refine .next_bind fun token other after beyond later seen _ follows streams ended => ?_
  exact .ok follows streams ⟨twins.kept follows seen, ended⟩

/-- Tokens are looked at in step. -/
theorem AlikeAt.peek : twins.AlikeAt stage twins.tokens Parsing.peek Parsing.peek := by
  refine .next_bind fun token other after beyond later seen back _ _ _ => ?_
  -- The token has been put back, so nothing is gone at the end.
  exact .ok (le_refl stage) back seen

/-- Tokens are taken in step if both mean something or neither does. -/
theorem AlikeAt.accept? {meaning? : Token → Option α} {sense? : Token → Option β}
    (means : ∀ token other, twins.tokens stage token other → Option.Rel
      (fun value twin => ∀ later, stage ≤ later → result later value twin)
      (meaning? token) (sense? other)) :
    twins.AlikeAt stage (fun later => Option.Rel (result later))
      (Parsing.accept? meaning?) (Parsing.accept? sense?) := by
  refine .next_bind fun token other after beyond later seen back follows streams _ => ?_
  -- Both tokens mean something and are kept, or both are put back.
  have same := means token other seen
  generalize meaning? token = meaning at same ⊢
  generalize sense? other = sense at same ⊢
  cases same with
  | some holds => exact .ok follows streams (.some (holds later follows))
  | none => exact .ok (le_refl stage) back .none

end Steps

section Rules

variable {parser : Parsing σ α} {other : Parsing τ α} {next? : α → Parsing σ β}
  {then? : α → Parsing τ β} {rest : Token → Parsing σ β} {others : Token → Parsing τ β}

namespace Alike

/-- Giving a value keeps step. -/
theorem pure (value : α) : twins.Alike (Pure.pure value) (Pure.pure value) :=
  fun _ => .pure rfl

/-- Giving up keeps step, since nothing is asked of a run that has not come to an end. -/
theorem firstExhausted : twins.Alike Parsing.exhausted other :=
  fun _ _ _ _ => .firstExhausted

/-- Giving up keeps step in the second parser too. -/
theorem secondExhausted : twins.Alike parser Parsing.exhausted :=
  fun _ _ _ _ => .secondExhausted

/-- Parsers in step may go on with what they have both found. -/
theorem bind (first : twins.Alike parser other)
    (second : ∀ value, twins.Alike (next? value) (then? value)) :
    twins.Alike (parser >>= next?) (other >>= then?) := by
  intro stage
  refine (first stage).bind ?_
  -- Both first runs gave one value, which is all the second parsers are told.
  rintro later value _ _ rfl
  exact second value later

/-- A value may be reshaped once it is found. -/
theorem reshape {shape : α → β} (first : twins.Alike parser other) :
    twins.Alike (parser >>= fun value => Pure.pure (shape value))
      (other >>= fun value => Pure.pure (shape value)) :=
  first.bind fun _ => pure _

/-- Parsers may go on with like tokens that they have taken. -/
theorem next_bind (goes : ∀ stage token other, twins.tokens stage token other →
      twins.AlikeAt stage (fun _ => Eq) (rest token) (others other)) :
    twins.Alike (Parsing.next >>= rest) (Parsing.next >>= others) :=
  fun _ => AlikeAt.next.bind fun later token other _ seen => goes later token other seen.1

/-- Parsers may go on with like tokens that they have looked at. -/
theorem peek_bind (goes : ∀ stage token other, twins.tokens stage token other →
      twins.AlikeAt stage (fun _ => Eq) (rest token) (others other)) :
    twins.Alike (Parsing.peek >>= rest) (Parsing.peek >>= others) :=
  fun _ => AlikeAt.peek.bind fun later token other _ seen => goes later token other seen

/-- A token is taken in step for what its lexeme means. -/
theorem accept? {meaning? : Token → Option α} (sense? : Lexeme → Option α)
    (shared : ∀ token, meaning? token = sense? token.lexeme) :
    twins.Alike (Parsing.accept? meaning?) (Parsing.accept? meaning?) := by
  intro stage
  have means : ∀ token other, twins.tokens stage token other → Option.Rel
      (fun value twin => ∀ later : Stage, stage ≤ later → value = twin)
      (meaning? token) (meaning? other) := by
    intro token other seen
    -- Like tokens have one lexeme, so they mean the same.
    rw [shared, shared, (twins.like seen).lexeme]
    cases sense? other.lexeme with
    | none => exact .none
    | some meaning => exact .some fun _ _ => rfl
  refine (AlikeAt.accept? means).mono ?_
  -- Meanings that are related are equal, and so are the options.
  rintro _ _ _ (same | _)
  · rw [same]
  · rfl

/-- A token is taken in step if its lexeme passes a test. -/
theorem eat {test : Token → Bool} (passes : Lexeme → Bool)
    (shared : ∀ token, test token = passes token.lexeme) :
    twins.Alike (Parsing.eat test : Parsing σ Bool) (Parsing.eat test : Parsing τ Bool) := by
  intro stage
  -- The tokens may differ in place, so that both were taken is all there is to know.
  have means : ∀ token other, twins.tokens stage token other → Option.Rel
      (fun _ _ : Token => ∀ later : Stage, stage ≤ later → True)
      (if test token then some token else none) (if test other then some other else none) := by
    intro token other seen
    rw [shared, shared, (twins.like seen).lexeme]
    cases passes other.lexeme with
    | false => exact .none
    | true => exact .some fun _ _ => trivial
  refine (AlikeAt.accept? means).bind ?_
  rintro later _ _ _ (_ | _)
  · exact .pure rfl
  · exact .pure rfl

/-- A keyword is taken in step. -/
theorem eatKeyword (word : Keyword) :
    twins.Alike (Parsing.eatKeyword word) (Parsing.eatKeyword word) :=
  eat (· == .keyword word) (·.isKeyword_eq word)

/-- A mark is taken in step. -/
theorem eatMark (sign : Mark) : twins.Alike (Parsing.eatMark sign) (Parsing.eatMark sign) :=
  eat (· == .mark sign) (·.isMark_eq sign)

/-- White space is taken in step. -/
theorem skipSpace : twins.Alike Parsing.skipSpace Parsing.skipSpace :=
  (eat (· == .space) Token.isSpace_eq).reshape

/-- A token is required in step for what its lexeme means. -/
theorem require {expected : Expectation} {meaning? : Token → Option α}
    (sense? : Lexeme → Option α) (shared : ∀ token, meaning? token = sense? token.lexeme) :
    twins.Alike (Parsing.require expected meaning?) (Parsing.require expected meaning?) := by
  refine next_bind fun stage token other seen => ?_
  -- Either both tokens mean the same, or both are refused.
  rw [shared, shared, (twins.like seen).lexeme]
  cases sense? other.lexeme with
  | none => exact .unexpected seen
  | some meaning => exact .pure rfl

/-- A keyword is required in step. -/
theorem requireKeyword (word : Keyword) :
    twins.Alike (Parsing.requireKeyword word) (Parsing.requireKeyword word) :=
  require (fun lexeme => if lexeme == .keyword word then some () else none) fun token => by
    rw [token.isKeyword_eq]

/-- A mark is required in step. -/
theorem requireMark (sign : Mark) :
    twins.Alike (Parsing.requireMark sign) (Parsing.requireMark sign) :=
  require (fun lexeme => if lexeme == .mark sign then some () else none) fun token => by
    rw [token.isMark_eq]

/-- A name is required in step. -/
theorem requireIdentifier : twins.Alike Parsing.requireIdentifier Parsing.requireIdentifier :=
  require Lexeme.name? Token.name?_eq

/-- An optional part is read in step. -/
theorem after? (word : Keyword) (item : twins.Alike parser other) :
    twins.Alike (Parsing.after? word parser) (Parsing.after? word other) := by
  refine (eatKeyword word).bind fun met => ?_
  -- The word was found in both streams or in neither.
  cases met with
  | true => exact item.reshape
  | false => exact pure _

/-- A closed part is read in step. -/
theorem closedBy (sign : Mark) (item : twins.Alike parser other) :
    twins.Alike (Parsing.closedBy sign parser) (Parsing.closedBy sign other) :=
  item.bind fun _ => (requireMark sign).bind fun _ => pure _

/-- One item of a list is read in step. -/
theorem itemLap (item : twins.Alike parser other) :
    twins.Alike (Parsing.itemLap parser) (Parsing.itemLap other) :=
  item.bind fun _ => (eatMark .comma).reshape

/-- Lists are read in step, whatever the bounds on their lengths. -/
theorem separated (item : twins.Alike parser other) (bound most : Nat) :
    twins.Alike (Parsing.separated parser bound) (Parsing.separated other most) := by
  -- Both runs go round once for each item.
  induction bound generalizing most with
  | zero => exact firstExhausted
  | succ bound ih =>
    cases most with
    | zero => exact secondExhausted
    | succ most =>
      rw [Parsing.separated_succ, Parsing.separated_succ]
      refine item.itemLap.bind fun lap => ?_
      split
      · exact (ih most).reshape
      · exact pure _

end Alike

end Rules

end Twins

end SelectSql
