import SelectSql.Proofs.Completing.Entry
import SelectSql.Proofs.Completing.Text
import SelectSql.Syntax.Equality

/-!
Refusals point at the first token that cannot be right. What stands in front of the token that is
reported may be completed to a text that is read, in the same way as the refused one.
-/

namespace SelectSql

open TokenStream (unread)
open Grammar (rules)

variable {entry : Entry} {text : String} {tape : Tape} {found : Token}
  {expected : Option Expectation} {chars left : List Char} {lexemes others : List Lexeme}
  {front back tokens : List Token} {ending : Except LexError Nat}

section Likeness

/-- Characters split into lexemes in one way. -/
theorem Scans.unique (scans : Scans chars lexemes []) (again : Scans chars others []) :
    lexemes = others := by
  -- What a text splits into is what its lexer shows, and that is unique.
  have shown : (⟨chars, 0, []⟩ : Lexer).Shows lexemes none := shows_iff_scans.2 scans
  exact (shown.unique (shows_iff_scans.2 again)).1

/-- Every lexeme that is read says something. -/
theorem Scans.ne_foreign (scans : Scans chars lexemes left) :
    ∀ lexeme ∈ lexemes, lexeme ≠ .foreign := by
  -- A token that is read has characters of its category, and so a lexeme.
  induction scans with
  | done => nofun
  | @token _ taken _ _ kind _ read _ ih =>
    refine List.forall_mem_cons.2 ⟨?_, ih⟩
    have genuine := (Token.lexeme_of_admits ⟨0, 0⟩ (admits_of_readLexeme read).1).2.1
    intro foreign
    rw [show (⟨kind, kind.textOf taken, ⟨0, 0⟩⟩ : Token).lexeme = .foreign from foreign] at genuine
    exact genuine

/-- Tokens that say the same are alike, if they say something. -/
theorem Token.Like.of_lexeme {token other : Token} (same : token.lexeme = other.lexeme)
    (known : token.lexeme ≠ .foreign) : token.Like other := by
  refine ⟨?_, same⟩
  -- A lexeme settles the category of its token, of whichever kind it is.
  cases said : token.lexeme with
  | symbol terminal =>
    have again := same.symm.trans said
    cases terminal with
    | keyword word => rw [Token.kind_of_keyword said, Token.kind_of_keyword again]
    | mark sign => rw [Token.kind_of_mark said, Token.kind_of_mark again]
  | name text =>
    rw [(Token.kind_of_name said).1, (Token.kind_of_name (same.symm.trans said)).1]
  | literal text =>
    rw [(Token.kind_of_literal said).1, (Token.kind_of_literal (same.symm.trans said)).1]
  | space =>
    have space : token.isSpace = true := by rw [token.isSpace_eq, said]; rfl
    have again : other.isSpace = true := by rw [other.isSpace_eq, ← same, said]; rfl
    rw [beq_iff_eq.1 space, beq_iff_eq.1 again]
  | foreign => exact absurd said known

/-- Tokens in a row that say the same are alike, if they say something. -/
theorem forall₂_like_of_lexemes {tokens others : List Token}
    (same : tokens.map Token.lexeme = others.map Token.lexeme)
    (known : ∀ lexeme ∈ tokens.map Token.lexeme, lexeme ≠ .foreign) :
    List.Forall₂ Token.Like tokens others := by
  -- The two rows have one length, since what they say has.
  induction tokens generalizing others with
  | nil => rw [List.map_eq_nil_iff.1 same.symm]; exact .nil
  | cons token tokens ih =>
    cases others with
    | nil => cases same
    | cons other others =>
      obtain ⟨first, rest⟩ := List.cons.inj same
      obtain ⟨one, others⟩ := List.forall_mem_cons.1 known
      exact .cons (.of_lexeme first one) (ih rest others)

end Likeness

namespace Entry

/-- A tape that is cut in front of the token that is refused on it is not long enough. -/
theorem exists_starves (entry : Entry)
    (refused : (entry.read (⟨front ++ back, ending⟩ : Tape)).1 =
      .error (.unexpected found expected))
    (beyond : found ∉ front) : ∃ bound, Starves (entry.parser (rules bound)) front := by
  let fault : LexError := .unexpectedCharacter 0 ""
  let short : Tape := ⟨front, .error fault⟩
  -- Up to the cut the two tapes hold the same tokens.
  have streams : (Twins.cut front fault).streams 0 ⟨front ++ back, ending⟩ short :=
    ⟨front, back, ending, fun _ member => member, rfl, rfl⟩
  have stopped : (entry.read short).1 = .error (.lexical fault) := by
    rcases Twins.read_results entry streams with
      ⟨tree, first, _⟩ | ⟨_, error, other, first, second, refusals⟩ | ⟨_, rfl, second⟩
    · rw [refused] at first
      cases first
    · -- Only a token in front of the cut could be refused on both tapes.
      rw [refused] at first
      obtain rfl := Except.error.inj first
      cases other with
      | unexpected token wanted => exact absurd refusals.1.2 beyond
      | _ => exact refusals.elim
    · exact second
  -- A fault at the cut means that more tokens were asked for.
  refine ⟨unread short, fault, (entry.read short).2, ?_⟩
  rw [entry.parser_eq_ranTo]
  generalize entry.read short = outcome at stopped ⊢
  obtain ⟨_, after⟩ := outcome
  obtain rfl := stopped
  rfl

/-- A tape is read with success if its tokens are accepted whatever the bound on nesting. -/
theorem exists_read_feed (entry : Entry)
    (accepts : ∀ bound, Accepts (entry.parser (rules bound)) tokens) :
    ∃ tree, (entry.read (feed tokens)).1 = .ok tree := by
  have accepted := accepts (unread (feed tokens))
  unfold Accepts at accepted
  rw [entry.parser_eq_ranTo (feed tokens)] at accepted
  generalize entry.read (feed tokens) = outcome at accepted ⊢
  -- Only a refusal is left to be ruled out, which accepting does.
  rcases outcome with ⟨error | tree, after⟩
  · exact absurd rfl (accepted error after)
  · exact ⟨tree, rfl⟩

/-- Characters are completed to a text that is read, if reading starves on what they split into. -/
theorem exists_completion (entry : Entry) {bound : Nat}
    (scans : Scans chars (front.map Token.lexeme) [])
    (starves : Starves (entry.parser (rules bound)) front) :
    ∃ more tree, entry.parse (String.ofList (chars ++ more)) = .ok tree := by
  -- The grammar gives the fillers, and the scanner the characters that spell them.
  obtain ⟨fillers, accepts⟩ := entry.exists_accepts starves
  obtain ⟨more, whole⟩ := scans.exists_completed fillers
  generalize completed false fillers front = meant at accepts whole
  have text : (String.ofList (chars ++ more)).toList = chars ++ more := String.toList_ofList
  -- The text is held by a tape of tokens like those that were meant.
  rw [← text] at whole
  obtain ⟨tokens, splits⟩ := whole.exists_splits 0
  have alike := forall₂_like_of_lexemes (splits.scans.unique whole) splits.scans.ne_foreign
  have streams : Twins.likeTapes.streams 0 ⟨tokens, .ok (stopOf 0 tokens)⟩ (feed meant) :=
    ⟨tokens, meant, [.eof 0], _, 0, alike, by simp [Token.isEof, Token.eof], rfl, rfl⟩
  obtain ⟨tree, read⟩ := entry.exists_read_feed accepts
  refine ⟨more, tree, ?_⟩
  rw [(entry.parse_eq_read splits.holds).1]
  -- Of two tapes with like tokens one is read with success if the other is.
  rcases Twins.read_results entry streams with
    ⟨other, first, second⟩ | ⟨_, _, _, _, second, _⟩ | ⟨_, excused, _⟩
  · rw [read] at second
    rw [first, second]
  · rw [read] at second
    cases second
  · exact excused.elim

end Entry

/-- A token that a text gives stands behind others, and in front of it is where these end. -/
theorem exists_front_of_gives {left : List Char} (splits : Splits 0 text.toList tokens left)
    (ended : ∀ place, ending = .ok place ↔ left = [] ∧ place = stopOf 0 tokens)
    (given : (⟨tokens, ending⟩ : Tape).Gives found) : ∃ front back chars rest,
      tokens = front ++ back ∧ found ∉ front ∧ text.toList = chars ++ rest ∧
      found.span.start = byteLength chars ∧ Scans chars (front.map Token.lexeme) [] := by
  rcases given with member | ⟨place, last, rfl⟩
  · -- A token of the row is reported where it stands for the first time.
    obtain ⟨front, back, rfl, beyond⟩ := List.eq_append_cons_of_mem member
    obtain ⟨chars, rest, whole, ahead, behind⟩ := splits.exists_of_append
    have place : found.span.start = 0 + byteLength chars := behind.begins found rfl
    rw [whole] at ahead
    rw [Nat.zero_add] at place
    exact ⟨front, found :: back, chars, rest, rfl, beyond, whole, place, ahead.scans_front⟩
  · -- All tokens are in front of the end of input, and it is none of them.
    obtain ⟨rfl, rfl⟩ := (ended place).1 last
    obtain ⟨chars, whole, stop⟩ := splits.exists_stop
    have beyond : Token.eof (stopOf 0 tokens) ∉ tokens := fun member => by
      have real := (splits.covers _ member).1.1
      cases real
    rw [whole] at splits
    refine ⟨tokens, [], chars, [], (List.append_nil _).symm, beyond, whole, ?_,
      splits.scans_front⟩
    rw [Token.eof, stop, Nat.zero_add]

/-- What stands in front of a token that is refused may be completed to a text that is read. -/
theorem parse_completable (entry : Entry) (text : String) (found : Token)
    (expected : Option Expectation)
    (refused : entry.parse text = .error (.unexpected found expected)) :
    ∃ front, Span.part? ⟨0, found.span.start⟩ text = some front ∧
      ∃ rest tree, entry.parse (front ++ rest) = .ok tree := by
  -- The text is held by a tape of its tokens, on which it is refused in the same way.
  obtain ⟨tokens, left, ending, splits, holds, ended⟩ := Lexer.exists_holds text
  obtain ⟨same, gives⟩ := entry.parse_eq_read holds
  obtain ⟨front, back, chars, rest, rfl, beyond, whole, place, scans⟩ :=
    exists_front_of_gives splits ended (gives found expected refused)
  rw [same] at refused
  -- Cut in front of the token the tape runs short, and what runs short can be completed.
  obtain ⟨bound, starves⟩ := entry.exists_starves refused beyond
  obtain ⟨more, tree, read⟩ := entry.exists_completion scans starves
  refine ⟨String.ofList chars, ?_, String.ofList more, tree, ?_⟩
  · rw [place, ← Nat.zero_add (byteLength chars)]
    have parts : text.toList = [] ++ (chars ++ rest) := whole
    exact Span.part?_eq parts
  · rw [← String.ofList_append]
    exact read

/-- A `NOT` that announces nothing is refused itself, though it was read with what follows it. -/
theorem parse_completable_not :
    Entry.expression.parse "f(1, 2 not)" =
        .error (.unexpected ⟨.keyword .not, "not", ⟨7, 10⟩⟩ (some .predicate)) ∧
      ∃ front, Span.part? ⟨0, 7⟩ "f(1, 2 not)" = some front ∧
        ∃ rest tree, Entry.expression.parse (front ++ rest) = .ok tree := by
  have refused : Entry.expression.parse "f(1, 2 not)" =
      .error (.unexpected ⟨.keyword .not, "not", ⟨7, 10⟩⟩ (some .predicate)) := by decide +kernel
  exact ⟨refused, parse_completable .expression "f(1, 2 not)" _ _ refused⟩

end SelectSql
