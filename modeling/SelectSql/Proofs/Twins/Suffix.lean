import SelectSql.Proofs.Lexical.Split
import SelectSql.Proofs.Twins.Entry

/-!
A lexer inside a text and a fresh one over what is left of it. The two stay in step, and whatever
the second reports stands in the whole text later by the bytes in front.
-/

namespace SelectSql

section Shifting

/-- The range that begins and ends later by some bytes. -/
def Span.shift (offset : Nat) (span : Span) : Span :=
  -- The length stays as it is.
  ⟨span.start + offset, span.stop + offset⟩

/-- The token later by some bytes. -/
def Token.shift (offset : Nat) (token : Token) : Token :=
  -- Only the place of a token depends on what is in front of it.
  { token with span := token.span.shift offset }

/-- The fault later by some bytes. -/
def LexError.shift (offset : Nat) : LexError → LexError
  -- The text at fault is what follows, so nothing in front changes it.
  | unexpectedCharacter position rest => unexpectedCharacter (position + offset) rest
  | unterminatedQuote position delimiter => unterminatedQuote (position + offset) delimiter

/-- The refusal later by some bytes. -/
def ParseError.shift (offset : Nat) : ParseError → ParseError
  -- What was expected has no place.
  | lexical error => lexical (error.shift offset)
  | unexpected found expected => unexpected (found.shift offset) expected
  | trailing found => trailing (found.shift offset)

/-- A token says the same wherever it stands. -/
theorem Token.like_shift (offset : Nat) (token : Token) : (token.shift offset).Like token :=
  ⟨rfl, rfl⟩

/-- A fault is reported later by as many bytes. -/
theorem LexError.position_shift (offset : Nat) (error : LexError) :
    (error.shift offset).position = error.position + offset := by
  cases error <;> rfl

/-- A refusal is reported later by as many bytes. -/
theorem ParseError.position_shift (offset : Nat) (error : ParseError) :
    (error.shift offset).position = error.position + offset := by
  cases error with
  | lexical error => exact error.position_shift offset
  | unexpected => rfl
  | trailing => rfl

end Shifting

variable {text : String} {lexer twin fresh after : Lexer} {left : List Char} {token : Token}

/-- A lexer that gives what a fresh one gives: that one, or the one after a look at its token. -/
def Lexer.Resumes (lexer fresh : Lexer) : Prop :=
  -- A token looked at is put back, so the text is read on from after it.
  lexer = fresh ∨ ∃ token after, fresh.next = (.ok token, after) ∧ lexer = after.push token

/-- A lexer that resumes another takes the same token next. -/
theorem Lexer.Resumes.next_eq (resumes : lexer.Resumes fresh) : lexer.next = fresh.next := by
  rcases resumes with rfl | ⟨token, after, taken, rfl⟩
  · rfl
  · rw [Lexer.next_push, taken]

/-- The result of reading a token, later by some bytes, with a lexer that is later by as many. -/
def Lexer.later (offset : Nat) : Except LexError Token × Lexer → Except LexError Token × Lexer
  -- What was read and what is left do not depend on the place.
  | (.ok token, after) =>
    (.ok (token.shift offset), { after with position := after.position + offset })
  | (.error error, after) =>
    (.error (error.shift offset), { after with position := after.position + offset })

/-- A text is read in the same way wherever it stands. -/
theorem Lexer.next_later (left : List Char) (place offset : Nat) :
    (⟨left, place + offset, []⟩ : Lexer).next = later offset (⟨left, place, []⟩ : Lexer).next := by
  rw [next_eq_scan rfl, next_eq_scan rfl, scan, scan]
  cases readLexeme left <;>
    simp [later, Token.shift, Span.shift, LexError.shift, Token.eof, Nat.add_right_comm]

/-- A step of a lexer takes some of what is left, and reports the place where it began. At the end
of input nothing is left, nor is after a delimiter without its partner. -/
theorem Lexer.exists_next (left : List Char) (place : Nat) :
    ∃ taken rest outcome, left = taken ++ rest ∧
      (⟨left, place, []⟩ : Lexer).next = (outcome, ⟨rest, place + byteLength taken, []⟩) ∧
      (∀ token, outcome = .ok token →
        token.position = place ∧ (token.isEof = true → rest = [])) ∧
      ∀ error, outcome = .error error → error.position = place ∧
        ∀ start delimiter, error = .unterminatedQuote start delimiter → rest = [] := by
  rw [next_eq_scan rfl, scan]
  cases found : readLexeme left with
  | finished =>
    -- At the end nothing is taken, and there is nothing left.
    have empty := readLexeme_eq_finished.1 found
    refine ⟨[], left, _, rfl, rfl, ?_, ?_⟩
    · rintro token same
      obtain rfl := Except.ok.inj same
      exact ⟨rfl, fun _ => empty⟩
    · rintro error ⟨⟩
  | lexeme kind taken rest =>
    refine ⟨taken, rest, _, (append_of_readLexeme found).symm, rfl, ?_, ?_⟩
    · rintro token same
      obtain rfl := Except.ok.inj same
      refine ⟨rfl, fun ending => ?_⟩
      -- What was read from characters is never the end of input.
      rw [(Token.lexeme_of_admits _ (admits_of_readLexeme found).1).1] at ending
      cases ending
    · rintro error ⟨⟩
  | unclosed delimiter =>
    -- The search for the delimiter took all that was left.
    refine ⟨left, [], _, (List.append_nil left).symm, rfl, ?_, ?_⟩
    · rintro token ⟨⟩
    · rintro error same
      obtain rfl := Except.error.inj same
      exact ⟨rfl, fun _ _ _ => rfl⟩
  | unknown =>
    -- The unknown character stays.
    refine ⟨[], left, _, rfl, rfl, ?_, ?_⟩
    · rintro token ⟨⟩
    · rintro error same
      obtain rfl := Except.error.inj same
      refine ⟨rfl, ?_⟩
      rintro start delimiter ⟨⟩

/-- A lexer at a stage of a text, beside one over the text without some bytes in front. -/
def Beside (text : String) (offset stage : Nat) (lexer twin : Lexer) : Prop :=
  -- Either of the two may have looked at its next token.
  ∃ front left place, text.toList = front ++ left ∧ byteLength front = stage ∧
    stage = place + offset ∧ lexer.Resumes ⟨left, stage, []⟩ ∧ twin.Resumes ⟨left, place, []⟩

/-- Two lexers beside each other take the same, at places that differ by the bytes in front. -/
theorem Beside.next {offset stage : Nat} (beside : Beside text offset stage lexer twin) :
    ∃ outcome after later, stage ≤ later ∧ twin.next = (outcome, after) ∧
      lexer.next = Lexer.later offset (outcome, after) ∧
      Beside text offset later (Lexer.later offset (outcome, after)).2 after ∧
      (∀ token, outcome = .ok token → token.position + offset = stage ∧
        (token.isEof = true → later = text.utf8ByteSize) ∧
        Beside text offset stage ((Lexer.later offset (outcome, after)).2.push (token.shift offset))
          (after.push token)) ∧
      ∀ error, outcome = .error error → error.position + offset = stage ∧
        ∀ start delimiter, error = .unterminatedQuote start delimiter →
          later = text.utf8ByteSize := by
  obtain ⟨front, left, place, whole, rfl, stage, resumes, follows⟩ := beside
  obtain ⟨taken, rest, outcome, parts, step, tokens, errors⟩ := Lexer.exists_next left place
  have behind : text.toList = (front ++ taken) ++ rest := by
    rw [whole, parts, List.append_assoc]
  have bytes : byteLength (front ++ taken) = place + byteLength taken + offset := by
    rw [byteLength_append, stage]
    omega
  have size : rest = [] → byteLength (front ++ taken) = text.utf8ByteSize := by
    rintro rfl
    rw [← String.ofList_toList (s := text), behind, List.append_nil, byteLength_eq]
  have aside := follows.next_eq.trans step
  have ahead := resumes.next_eq
  rw [stage, Lexer.next_later, step] at ahead
  refine ⟨outcome, _, byteLength (front ++ taken), ?_, aside, ahead, ?_, ?_, ?_⟩
  · rw [byteLength_append]
    exact Nat.le_add_right _ _
  · refine ⟨front ++ taken, rest, _, behind, rfl, bytes, Or.inl ?_, Or.inl rfl⟩
    rw [bytes]
    cases outcome <;> rfl
  · rintro token rfl
    obtain ⟨start, ending⟩ := tokens token rfl
    refine ⟨by rw [start, stage], fun last => size (ending last), ?_⟩
    -- A token that is put back leaves both where they were.
    refine ⟨front, left, place, whole, rfl, stage, Or.inr ?_, Or.inr ⟨token, _, step, rfl⟩⟩
    refine ⟨token.shift offset, _, ?_, rfl⟩
    rw [stage, Lexer.next_later, step]
    rfl
  · rintro error rfl
    obtain ⟨start, unclosed⟩ := errors error rfl
    exact ⟨by rw [start, stage], fun start delimiter same => size (unclosed start delimiter same)⟩

/-- A lexer inside a text, at a byte offset, and a fresh one that began some bytes later. -/
def Twins.suffix (text : String) (offset : Nat) : Twins Nat Lexer Lexer where
  streams := Beside text offset
  left := Beside text offset
  tokens stage token other := token = other.shift offset ∧ token.position ≤ stage
  faults stage error fault := error = fault.shift offset ∧ error.position ≤ stage ∧
    ∀ start delimiter, error = .unterminatedQuote start delimiter → stage = text.utf8ByteSize
  ended stage := stage = text.utf8ByteSize
  excused _ := False
  like := by
    rintro _ _ other ⟨rfl, _⟩
    exact other.like_shift offset
  leave beside := beside
  kept after seen := ⟨seen.1, Nat.le_trans seen.2 after⟩
  next := by
    intro stage lexer twin beside
    obtain ⟨outcome, after, later, forward, aside, ahead, follows, tokens, errors⟩ := beside.next
    have aside : TokenStream.next twin = _ := aside
    have ahead : TokenStream.next lexer = _ := ahead
    rw [ahead, aside]
    cases outcome with
    | ok token =>
      obtain ⟨place, ending, back⟩ := tokens token rfl
      exact ⟨⟨rfl, Nat.le_of_eq place⟩, back, later, forward, follows, ending⟩
    | error error =>
      obtain ⟨place, unclosed⟩ := errors error rfl
      have reached : (error.shift offset).position ≤ later := by
        rw [error.position_shift, place]
        exact forward
      refine .inl ⟨later, forward, follows, rfl, reached, ?_⟩
      intro start delimiter same
      cases error with
      | unexpectedCharacter => cases same
      | unterminatedQuote => exact unclosed _ _ rfl

end SelectSql
