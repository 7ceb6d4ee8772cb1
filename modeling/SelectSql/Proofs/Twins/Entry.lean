import SelectSql.Grammar.Entry
import SelectSql.Proofs.Twins.Grammar

/-!
The four ways to read a whole stream. Each keeps two streams in step to its end, and a bound on
nesting that suffices may be replaced by any other that does.
-/

namespace SelectSql

open TokenStream (unread)
open Grammar (rules rules_last whole)

/-- The ways to read a whole stream. -/
inductive Entry where
  /-- As a statement, where a token that begins none is left in place. -/
  | statement
  /-- As a statement, where a token that begins none is taken. -/
  | select
  /-- As an expression. -/
  | expression
  /-- As a source of rows. -/
  | source
  deriving DecidableEq, Repr

variable {σ τ α β Stage : Type} [TokenStream σ] [TokenStream τ] [Preorder Stage]

/-- Reads all of a stream, and gives the tree with what is left of the stream. -/
def Entry.read (stream : σ) : Entry → Except ParseError Node × σ
  -- A statement is a tree by itself.
  | .statement => (readStatement stream).map (·.map Node.select) id
  | .select => (readSelect stream).map (·.map Node.select) id
  | .expression => readExpression stream
  | .source => readSource stream

/-- The tree that a text is. -/
def Entry.parse (text : String) (entry : Entry) : Except ParseError Node :=
  -- A text has no later reader, so only the result is kept.
  (entry.read (Lexer.ofText text)).1

/-- The parser that reads all of a stream, over rules for what is nested in it. -/
def Entry.parser (inner : Grammar.Rules σ) : Entry → Parsing σ Node
  -- The result of reading is this parser's, with a bound on nesting that suffices.
  | .statement => whole (Grammar.statement inner) >>= fun tree => pure (.select tree)
  | .select => whole (Grammar.spacedSelect inner) >>= fun tree => pure (.select tree)
  | .expression => whole (Grammar.expression inner)
  | .source => whole (Grammar.source inner)

/-- The run that has come to an end with a result. -/
def Parsing.ranTo : Except ParseError α × σ → EStateM.Result Halt σ α
  -- A result is never that the run gave up.
  | (.ok value, after) => .ok value after
  | (.error error, after) => .error (.refused error) after

section Running

/-- A parser that lasts runs to the result that it is finished with. -/
theorem Parsing.eq_ranTo_finish {parser : Parsing σ α} {stream : σ} {bound cost : Nat}
    (lasting : parser.Spends bound cost) (few : unread stream < bound) :
    parser stream = ranTo (finish parser stream lasting few) := by
  unfold finish
  split
  · assumption
  · assumption
  · rename_i after found
    exact absurd (lasting stream few) (by simp [found])

/-- Reading a stream is running the parser over it, with the unread tokens as the bound. -/
theorem Entry.parser_eq_ranTo (entry : Entry) (stream : σ) :
    entry.parser (rules (unread stream)) stream = Parsing.ranTo (entry.read stream) := by
  have select : ∀ {parser : Parsing σ Select} {result : Except ParseError Select × σ},
      parser stream = Parsing.ranTo result →
        (parser >>= fun tree => pure (Node.select tree)) stream =
          Parsing.ranTo (result.map (·.map Node.select) id) := by
    rintro parser ⟨_ | _, _⟩ run
    · rw [Parsing.bind_apply, run]
      rfl
    · rw [Parsing.bind_apply, run]
      rfl
  cases entry with
  | statement => exact select (Parsing.eq_ranTo_finish _ _)
  | select => exact select (Parsing.eq_ranTo_finish _ _)
  | expression => exact Parsing.eq_ranTo_finish _ _
  | source => exact Parsing.eq_ranTo_finish _ _

/-- Reading a whole stream lasts as long as the rules for what is nested. -/
theorem Entry.parser_spendsBy {gauge : Gauge σ} {inner : Grammar.Rules σ} {bound : Nat}
    (entry : Entry) (lasting : inner.Last gauge bound)
    (admitted : ∀ found, gauge.admits (.trailing found)) :
    Parsing.SpendsBy gauge (bound + 1) 1 (entry.parser inner) := by
  -- Each way to read takes one rule and then the end of input.
  cases entry with
  | statement =>
    exact (Grammar.whole_spendsBy admitted (Grammar.statement_spends lasting)).reshape
  | select =>
    exact (Grammar.whole_spendsBy admitted (Grammar.spacedSelect_spends lasting)).reshape
  | expression => exact Grammar.whole_spendsBy admitted (Grammar.expression_spends lasting)
  | source => exact Grammar.whole_spendsBy admitted (Grammar.source_spends lasting)

end Running

namespace Twins

variable {twins : Twins Stage σ τ} {stage : Stage} {stream : σ} {twin : τ}

/-- Whole texts are read in step, and with success to their ends. -/
theorem Alike.whole {item : Parsing σ α} {other : Parsing τ α} (alike : twins.Alike item other) :
    twins.AlikeAt stage (fun later value given => value = given ∧ twins.ended later)
      (Grammar.whole item) (Grammar.whole other) := by
  refine (alike stage).bind fun later value given _ same => ?_
  have ends : twins.AlikeAt later (fun last _ _ => twins.ended last)
      Grammar.endOfInput Grammar.endOfInput := by
    refine (skipSpace later).bind fun spaced _ _ _ _ => AlikeAt.next.bind ?_
    rintro last token given _ ⟨seen, ended⟩
    -- Like tokens are both the end of input or both follow the text.
    have kind := (twins.like seen).kind
    unfold Token.isEof at ended ⊢
    rw [kind] at ended ⊢
    split
    · rename_i ending
      exact .pure (ended ending)
    · exact fun _ _ streams => .refused (le_refl last) (twins.leave streams) seen
  exact ends.bind fun last _ _ _ ended => .pure ⟨same, ended⟩

/-- A statement is read in step, also where it is looked for first. -/
theorem Alike.statement {inner : Grammar.Rules σ} {other : Grammar.Rules τ}
    (nested : twins.Nested inner other) :
    twins.Alike (Grammar.statement inner) (Grammar.statement other) := by
  refine skipSpace.bind fun _ => peek_bind fun stage token twin seen => ?_
  simp only [Token.isKeyword_eq, (twins.like seen).lexeme]
  split
  · exact Alike.select nested stage
  · exact .unexpected seen

/-- A statement after white space is read in step. -/
theorem Alike.spacedSelect {inner : Grammar.Rules σ} {other : Grammar.Rules τ}
    (nested : twins.Nested inner other) :
    twins.Alike (Grammar.spacedSelect inner) (Grammar.spacedSelect other) :=
  skipSpace.bind fun _ => Alike.select nested

/-- The four ways to read keep two streams in step if the rules for what is nested do. -/
theorem Nested.parser {inner : Grammar.Rules σ} {other : Grammar.Rules τ}
    (nested : twins.Nested inner other) (stage : Stage) (entry : Entry) :
    twins.AlikeAt stage (fun later tree other => tree = other ∧ twins.ended later)
      (entry.parser inner) (entry.parser other) := by
  -- Statements are reshaped into nodes once the text is at its end.
  have reshaped : ∀ {item : Parsing σ Select} {other : Parsing τ Select}, twins.Alike item other →
      twins.AlikeAt stage (fun later tree other => tree = other ∧ twins.ended later)
        (Grammar.whole item >>= fun tree => pure (Node.select tree))
        (Grammar.whole other >>= fun tree => pure (Node.select tree)) := by
    intro item other alike
    refine alike.whole.bind ?_
    rintro later _ _ _ ⟨rfl, ended⟩
    exact .pure ⟨rfl, ended⟩
  cases entry with
  | statement => exact reshaped (Alike.statement nested)
  | select => exact reshaped (Alike.spacedSelect nested)
  | expression => exact (Alike.expression nested).whole
  | source => exact (Alike.source nested).whole

/-- The four ways to read keep two streams in step, whatever the bounds on nesting. -/
theorem parser_alike (twins : Twins Stage σ τ) (stage : Stage) (entry : Entry) (bound most : Nat) :
    twins.AlikeAt stage (fun later tree other => tree = other ∧ twins.ended later)
      (entry.parser (rules bound)) (entry.parser (rules most)) :=
  -- The rules of the grammar keep any two streams in step.
  (twins.nested bound most).parser stage entry

/-- Two streams in step are read in step. -/
theorem read_agree (entry : Entry) (streams : twins.streams stage stream twin) :
    twins.Agree stage (fun later tree other => tree = other ∧ twins.ended later)
      (Parsing.ranTo (entry.read stream)) (Parsing.ranTo (entry.read twin)) := by
  rw [← entry.parser_eq_ranTo, ← entry.parser_eq_ranTo]
  exact twins.parser_alike stage entry _ _ stream twin streams

/-- Reading two streams in step gives one tree, or refusals for one reason, unless an excused fault
stops the second. -/
theorem read_results (entry : Entry) (streams : twins.streams stage stream twin) :
    (∃ tree, (entry.read stream).1 = .ok tree ∧ (entry.read twin).1 = .ok tree) ∨
      (∃ later error fault, (entry.read stream).1 = .error error ∧
        (entry.read twin).1 = .error fault ∧ twins.Refusals later error fault) ∨
      ∃ fault, twins.excused fault ∧ (entry.read twin).1 = .error (.lexical fault) := by
  have agree := twins.read_agree entry streams
  generalize entry.read stream = first at agree ⊢
  generalize entry.read twin = second at agree ⊢
  -- What a run has come to is either a tree or a refusal, so it never gave up.
  generalize run : Parsing.ranTo first = outcome at agree
  generalize other : Parsing.ranTo second = ending at agree
  cases agree with
  | ok _ _ holds =>
    rcases first with ⟨_ | _, _⟩ <;> cases run
    rcases second with ⟨_ | _, _⟩ <;> cases other
    obtain ⟨rfl, _⟩ := holds
    exact .inl ⟨_, rfl, rfl⟩
  | refused _ _ refusals =>
    rcases first with ⟨_ | _, _⟩ <;> cases run
    rcases second with ⟨_ | _, _⟩ <;> cases other
    exact .inr (.inl ⟨_, _, _, rfl, rfl, refusals⟩)
  | firstExhausted => rcases first with ⟨_ | _, _⟩ <;> cases run
  | secondExhausted => rcases second with ⟨_ | _, _⟩ <;> cases other
  | excused excused =>
    rcases second with ⟨_ | _, _⟩ <;> cases other
    exact .inr (.inr ⟨_, excused, rfl⟩)

/-- Reading a stream in step with another succeeds only at its end. -/
theorem ended_of_read {tree : Node} (entry : Entry) (streams : twins.streams stage stream twin)
    (accepted : (entry.read stream).1 = .ok tree) :
    (∃ later, twins.ended later) ∨ ∃ fault, twins.excused fault := by
  have agree := twins.read_agree entry streams
  generalize entry.read stream = first at agree accepted
  generalize entry.read twin = second at agree
  obtain ⟨_, after⟩ := first
  obtain rfl := accepted
  generalize other : Parsing.ranTo second = ending at agree
  cases agree with
  | ok _ _ holds => exact .inl ⟨_, holds.2⟩
  | secondExhausted => rcases second with ⟨_ | _, _⟩ <;> cases other
  | excused excused => exact .inr ⟨_, excused⟩

/-- A stream and itself are in step. -/
def same (σ : Type) [TokenStream σ] : Twins Nat σ σ where
  streams _ := Eq
  left _ := Eq
  tokens _ := Eq
  faults _ := Eq
  ended _ := True
  excused _ := False
  like := by
    rintro _ token _ rfl
    exact ⟨rfl, rfl⟩
  leave same := same
  kept _ seen := seen
  next := by
    rintro stage stream _ rfl
    rcases TokenStream.next stream with ⟨_ | _, after⟩
    · exact .inl ⟨stage, le_refl stage, rfl, rfl⟩
    · exact ⟨rfl, rfl, stage, le_refl stage, rfl, fun _ => trivial⟩

/-- Refusals for the same reason are equal where tokens and faults that go together are. -/
theorem eq_of_refusals_of_eq {error fault : ParseError}
    (tokens : ∀ token other, twins.tokens stage token other → token = other)
    (faults : ∀ error fault, twins.faults stage error fault → error = fault)
    (refusals : twins.Refusals stage error fault) : error = fault := by
  cases error <;> cases fault <;> first | exact refusals.elim | skip
  · rw [faults _ _ refusals]
  · obtain ⟨seen, rfl⟩ := refusals
    rw [tokens _ _ seen]
  · rw [tokens _ _ refusals]

/-- A stream and itself are refused for one reason. -/
theorem eq_of_refusals {stage : Nat} {error fault : ParseError}
    (refusals : (same σ).Refusals stage error fault) : error = fault :=
  eq_of_refusals_of_eq (fun _ _ => id) (fun _ _ => id) refusals

/-- Runs on one stream that stay in step come to the same end, unless one of them gives up. -/
theorem eq_of_agree {stage : Nat} {outcome result : EStateM.Result Halt σ α}
    (agree : (same σ).Agree stage (fun _ => Eq) outcome result)
    (lasts : ∀ after, outcome ≠ .error .exhausted after)
    (ends : ∀ after, result ≠ .error .exhausted after) : outcome = result := by
  -- What is in step with itself is the same.
  cases agree with
  | ok _ streams holds => rw [holds, show _ = _ from streams]
  | refused _ left refusals => rw [eq_of_refusals refusals, show _ = _ from left]
  | firstExhausted => exact absurd rfl (lasts _)
  | secondExhausted => exact absurd rfl (ends _)
  | excused excused => exact excused.elim

end Twins

/-- A bound that lasts gives the result of reading. -/
theorem Entry.parser_eq_ranTo_of_ne {entry : Entry} {stream : σ} {bound : Nat}
    (lasts : ∀ after, entry.parser (rules bound) stream ≠ .error .exhausted after) :
    entry.parser (rules bound) stream = Parsing.ranTo (entry.read stream) := by
  -- Reading does not give up either, so both runs come to the same end.
  have ends : ∀ after, Parsing.ranTo (entry.read stream) ≠ .error .exhausted after := by
    intro after
    cases entry.read stream with
    | mk result _ => cases result <;> exact nofun
  rw [← entry.parser_eq_ranTo] at ends ⊢
  have agree := ((Twins.same σ).parser_alike 0 entry bound (unread stream)).mono
    (fun _ _ _ holds => holds.1) stream stream rfl
  exact Twins.eq_of_agree agree lasts ends

end SelectSql
