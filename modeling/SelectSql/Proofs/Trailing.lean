import SelectSql.Proofs.Agreement
import SelectSql.Proofs.Reading.Entry
import SelectSql.Proofs.Spelling.Ahead
import SelectSql.Proofs.Twins.Suffix
import SelectSql.Syntax.Equality

/-!
Texts that are refused for what follows in them. What stands in front of the token that is reported
is read by itself: no look ahead that was made at that token comes out otherwise at the end of
input.
-/

namespace SelectSql

open TokenStream (unread)
open Grammar (whole endOfInput rules rules_last rules_sound)

/-- A text that does not split into tokens is not refused for what follows it. -/
theorem ParseError.lexical_ne_trailing (error : LexError) (found : Token) :
    ParseError.lexical error ≠ .trailing found := nofun

/-- A text with a wrong token in it is not refused for what follows it. -/
theorem ParseError.unexpected_ne_trailing (wrong : Token) (expected : Option Expectation)
    (found : Token) : ParseError.unexpected wrong expected ≠ .trailing found := nofun

/-- The count of unread tokens, where no refusal may be for what follows a complete text. -/
def Gauge.inside (σ : Type) [TokenStream σ] : Gauge σ :=
  -- Only the check at the very end of a reading refuses a text for what follows.
  { Gauge.tokens σ with
    admits := fun error => ∀ found, error ≠ .trailing found
    lexical := ParseError.lexical_ne_trailing
    unexpected := ParseError.unexpected_ne_trailing }

variable {α : Type} {text : String} {lexer after : Lexer} {found : Token} {item : Parsing Lexer α}

/-- A parser that never refuses a text for what follows does not. -/
theorem Parsing.SpendsBy.ne_trailing {bound cost : Nat}
    (spends : item.SpendsBy (.inside Lexer) bound cost) (few : unread lexer < bound) :
    item lexer ≠ .error (.refused (.trailing found)) after := by
  -- A refusal for what follows is not admitted.
  intro refused
  have outcome := spends lexer few
  rw [refused] at outcome
  exact outcome found rfl

/-- A whole text is refused for what follows once its content has been read and white space skipped,
where the next token is not the end of input. -/
theorem exists_of_whole_trailing {bound cost : Nat}
    (spends : item.SpendsBy (.inside Lexer) bound cost) (few : unread lexer < bound)
    (refused : whole item lexer = .error (.refused (.trailing found)) after) :
    ∃ value stop spaced, item lexer = .ok value stop ∧ Parsing.skipSpace stop = .ok () spaced ∧
      spaced.next = (.ok found, after) ∧ found.isEof = false := by
  rw [whole, Parsing.bind_apply] at refused
  cases read : item lexer with
  | error halt stop =>
    -- The content itself refuses nothing for what follows.
    rw [read] at refused
    cases refused
    exact absurd read (spends.ne_trailing few)
  | ok value stop =>
    simp only [read, Parsing.bind_apply, endOfInput] at refused
    cases skipped : Parsing.skipSpace stop with
    | error halt spaced =>
      -- Neither does skipping white space.
      rw [skipped] at refused
      cases refused
      have skips : Parsing.SpendsBy (.inside Lexer) (unread stop + 1) 0 Parsing.skipSpace :=
        .skipSpace _
      exact absurd skipped (skips.ne_trailing (Nat.lt_succ_self _))
    | ok _ spaced =>
      refine ⟨value, stop, spaced, rfl, skipped, ?_⟩
      simp only [skipped, Parsing.next] at refused
      cases taken : TokenStream.next spaced with
      | mk outcome last =>
        rw [taken] at refused
        cases outcome with
        | error error => cases refused
        | ok token =>
          have taken : spaced.next = (.ok token, last) := taken
          cases ending : token.isEof with
          | true =>
            simp only [ending, if_true] at refused
            cases refused
          | false =>
            simp only [ending, Bool.false_eq_true, if_false] at refused
            cases refused
            exact ⟨taken, ending⟩

/-- A reading in step with itself stands at some place of its text, maybe with a token looked at. -/
theorem exists_beside_of_run {value : α} (alike : (Twins.suffix text 0).Alike item item)
    (run : item (Lexer.ofText text) = .ok value after) :
    ∃ front left, text.toList = front ++ left ∧
      after.Resumes ⟨left, byteLength front, []⟩ := by
  -- At the start nothing is in front.
  have start : Beside text 0 0 (Lexer.ofText text) (Lexer.ofText text) :=
    ⟨[], text.toList, 0, rfl, rfl, rfl, .inl rfl, .inl rfl⟩
  have agree := alike 0 _ _ start
  rw [run] at agree
  cases agree with
  | ok _ streams _ =>
    obtain ⟨front, left, _, parts, rfl, _, resumes, _⟩ := streams
    exact ⟨front, left, parts, resumes⟩

/-- Tokens that have been split off are shown before what is shown after them. -/
theorem Splits.shows {position : Nat} {chars left : List Char} {tokens : List Token}
    {lexemes : List Lexeme} {fault : Option LexError} (splits : Splits position chars tokens left)
    (shown : (⟨left, stopOf position tokens, []⟩ : Lexer).Shows lexemes fault) :
    (⟨chars, position, []⟩ : Lexer).Shows (tokens.map Token.lexeme ++ lexemes) fault := by
  induction splits with
  | done => exact shown
  | token found _ ih =>
    rw [stopOf_cons] at shown
    exact .of_readLexeme found rfl _ rfl rfl (ih shown)

/-- A text splits in front of each of its tokens. -/
theorem Splits.exists_before {front behind left : List Char} {tokens : List Token}
    (splits : Splits 0 (front ++ behind) tokens left) (member : found ∈ tokens)
    (start : found.span.start = byteLength front) :
    ∃ before, Splits 0 (front ++ behind) before behind ∧ stopOf 0 before = byteLength front := by
  obtain ⟨before, others, rfl⟩ := List.append_of_mem member
  obtain ⟨chars, rest, whole, ahead, beyond⟩ := splits.exists_of_append
  -- The bytes in front of the token tell which characters are there.
  have place : found.span.start = 0 + byteLength chars := beyond.begins found rfl
  obtain ⟨rfl, rfl⟩ := eq_of_byteLength_eq whole (by omega)
  obtain ⟨other, again, stop⟩ := ahead.exists_stop
  obtain rfl : front = other := List.append_cancel_right again
  exact ⟨before, ahead, by rw [stop, Nat.zero_add]⟩

/-- What a lexer shows is shown by the one that it resumes. -/
theorem Lexer.Resumes.shows {fresh : Lexer} {lexemes : List Lexeme} {fault : Option LexError}
    (resumes : lexer.Resumes fresh) (shown : lexer.Shows lexemes fault) :
    fresh.Shows lexemes fault := by
  -- Both take the same token next, and go on alike.
  have same := resumes.next_eq
  cases shown with
  | ended taken ending => exact .ended (same.symm.trans taken) ending
  | failed taken => exact .failed (same.symm.trans taken)
  | token taken real shows => exact .token (same.symm.trans taken) real shows

/-- The next token begins at the place where a lexer stands. -/
theorem Lexer.Resumes.start_of_next {left : List Char} {position : Nat}
    (resumes : lexer.Resumes ⟨left, position, []⟩) (taken : lexer.next = (.ok found, after)) :
    found.span.start = position := by
  obtain ⟨_, _, outcome, _, step, tokens, _⟩ := Lexer.exists_next left position
  rw [← resumes.next_eq, taken, Prod.mk.injEq] at step
  exact (tokens found step.1.symm).1

/-- Where white space has been skipped the next token is none. -/
theorem Lexer.Shows.isSpace_of_next {rest : List Lexeme} {fault : Option LexError}
    (shown : lexer.Shows (skip rest) fault) (taken : lexer.next = (.ok found, after))
    (real : found.isEof = false) : found.isSpace = false := by
  rcases shown.of_next taken with ⟨others, _, shape, _⟩ | ⟨ending, _, _⟩
  · -- The token is the first of the lexemes that are shown.
    have other := head?_skip rest
    rw [shape] at other
    rw [found.isSpace_eq, beq_eq_false_iff_ne]
    exact fun space => other (congrArg some space)
  · rw [real] at ending
    cases ending

/-- In front of a token that a text is refused for there is a text that spells what was read. -/
theorem exists_front_of_trailing {good : α → Prop} {slots : α → List Slot} {bound cost paid : Nat}
    {lasting : (whole item).Spends bound cost} {few : unread (Lexer.ofText text) < bound}
    (spends : item.SpendsBy (.inside Lexer) bound paid)
    (alike : (Twins.suffix text 0).Alike item item)
    (reads : ∀ lexemes, Reads item lexemes fun value rest =>
      good value ∧ fill (slots value) lexemes = some rest)
    (given : ∀ tape, (Lexer.ofText text).Holds tape → tape.Gives found)
    (refused : (Parsing.finish (whole item) (Lexer.ofText text) lasting few).1 =
      .error (.trailing found)) :
    found.isSpace = false ∧ found.isEof = false ∧
      ∃ front, Span.part? ⟨0, found.span.start⟩ text = some front ∧
        ∃ value, good value ∧ ∃ lexemes, (Lexer.ofText front).Shows lexemes none ∧
          Covers (slots value) lexemes := by
  have run := Parsing.eq_ranTo_finish lasting few
  generalize Parsing.finish (whole item) (Lexer.ofText text) lasting few = outcome at run refused
  obtain ⟨_, after⟩ := outcome
  obtain rfl := refused
  obtain ⟨value, stop, spaced, read, skipped, taken, real⟩ :=
    exists_of_whole_trailing spends few run
  -- The value spells the lexemes up to what is left, which begins with the token.
  obtain ⟨lexemes, fault, shown, proper⟩ := Lexer.exists_shows text
  obtain ⟨rest, left, ordered, holds, filled⟩ :=
    reads lexemes _ fault value stop shown proper read
  obtain ⟨_, left, _, rfl⟩ := Reads.skipSpace stop fault () spaced left ordered skipped
  have solid : found.isSpace = false := left.isSpace_of_next taken real
  -- The token stands where the reading has come to.
  have both : (Twins.suffix text 0).Alike (item >>= fun _ => Parsing.skipSpace)
      (item >>= fun _ => Parsing.skipSpace) := alike.bind fun _ => .skipSpace
  obtain ⟨front, behind, parts, resumes⟩ :=
    exists_beside_of_run both (Parsing.bind_eq_ok.2 ⟨value, stop, read, skipped⟩)
  have start : found.span.start = byteLength front := resumes.start_of_next taken
  -- It is one of the tokens of the text, so the text splits in front of it.
  obtain ⟨tokens, remainder, ending, splits, held, _⟩ := Lexer.exists_holds text
  have member : found ∈ tokens := by
    rcases given _ held with member | ⟨place, _, rfl⟩
    · exact member
    · cases real
  rw [parts] at splits
  obtain ⟨before, ahead, stopped⟩ := splits.exists_before member start
  have split : lexemes = before.map Token.lexeme ++ skip rest := by
    have later := resumes.shows left
    rw [← stopped] at later
    have whole := ahead.shows later
    rw [← parts] at whole
    exact (shown.unique whole).1
  refine ⟨solid, real, String.ofList front, ?_, value, holds, before.map Token.lexeme, ?_, ?_⟩
  · rw [start, ← Nat.zero_add (byteLength front)]
    have parts : text.toList = [] ++ (front ++ behind) := parts
    exact Span.part?_eq parts
  · rw [Lexer.ofText, String.toList_ofList, shows_iff_scans]
    exact ahead.scans_front
  · -- Where the text is cut, every look ahead at the token is one at the end of input.
    have through : fill (slots value ++ [.gap]) (before.map Token.lexeme ++ skip rest) =
        some (skip rest) := by
      rw [← split, fill_append_of filled, fill_gap, fill_nil]
    exact fill_cut through

/-- A text that is refused for what follows is read once it is cut in front of that. -/
theorem parse_trailing (entry : Entry) (text : String) (found : Token)
    (refused : entry.parse text = .error (.trailing found)) :
    found.isSpace = false ∧ found.isEof = false ∧
      ∃ front, Span.part? ⟨0, found.span.start⟩ text = some front ∧
        ∃ tree, entry.parse front = .ok tree := by
  -- The token is one that the tape of the text gives.
  have given : ∀ tape, (Lexer.ofText text).Holds tape → tape.Gives found := by
    intro tape holds
    have bears := tape.bears_read entry
    rw [← (entry.parse_eq_read holds).1, refused] at bears
    exact bears
  -- Where a statement is read, the tree that a refusal comes with is none.
  have statement : ∀ {result : Except ParseError Select × Lexer},
      (result.map (·.map Node.select) id).1 = .error (.trailing found) →
        result.1 = .error (.trailing found) := by
    intro result refused
    obtain ⟨_ | _, _⟩ := result
    · cases refused
      rfl
    · cases refused
  have nested := (Twins.suffix text 0).nested (unread (Lexer.ofText text))
    (unread (Lexer.ofText text))
  cases entry with
  | statement =>
    obtain ⟨solid, real, front, cut, tree, covered⟩ := exists_front_of_trailing
      (Grammar.statement_spends (rules_last _)) (.statement nested) (statement_reads _) given
      (statement refused)
    have read : parseStatement front = .ok tree := parseStatement_eq_ok.2 covered
    exact ⟨solid, real, front, cut, .select tree, congrArg (Except.map Node.select) read⟩
  | select =>
    obtain ⟨solid, real, front, cut, tree, covered⟩ := exists_front_of_trailing
      (Grammar.spacedSelect_spends (rules_last _)) (.spacedSelect nested) (spacedSelect_reads _)
      given (statement refused)
    have read : parseSelect front = .ok tree := parseSelect_eq_ok.2 covered
    exact ⟨solid, real, front, cut, .select tree, congrArg (Except.map Node.select) read⟩
  | expression =>
    obtain ⟨solid, real, front, cut, tree, covered⟩ := exists_front_of_trailing
      (Grammar.expression_spends (rules_last _)) (.expression nested)
      (Grammar.expression_reads (rules_sound _)) given refused
    exact ⟨solid, real, front, cut, tree, parseExpression_eq_ok.2 covered⟩
  | source =>
    obtain ⟨solid, real, front, cut, tree, covered⟩ := exists_front_of_trailing
      (Grammar.source_spends (rules_last _)) (.source nested)
      (Grammar.source_reads (rules_sound _)) given refused
    exact ⟨solid, real, front, cut, tree, parseSource_eq_ok.2 covered⟩

/-- A name after a list is no part of a predicate, and what is in front of the name is one. -/
theorem parse_trailing_name :
    Entry.expression.parse "a not in (b) c" =
        .error (.trailing ⟨.identifier, "c", ⟨13, 14⟩⟩) ∧
      ∃ front, Span.part? ⟨0, 13⟩ "a not in (b) c" = some front ∧
        ∃ tree, Entry.expression.parse front = .ok tree := by
  have refused : Entry.expression.parse "a not in (b) c" =
      .error (.trailing ⟨.identifier, "c", ⟨13, 14⟩⟩) := by decide +kernel
  exact ⟨refused, (parse_trailing .expression "a not in (b) c" _ refused).2.2⟩

end SelectSql
