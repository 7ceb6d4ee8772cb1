import Mathlib.Data.List.Chain
import SelectSql.Proofs.Lexical.Split

/-!
The tokens of a text lie side by side in it. Each covers the bytes that it was read from, the first
begins where the text does, and the last ends where the end of input or a fault is reported.
-/

namespace SelectSql

/-- The part of a text within a span, if both bounds are boundaries of characters. -/
def Span.part? (span : Span) (text : String) : Option String :=
  -- An offset inside a character is no position of the text, so nothing is cut there.
  if bounds : String.Pos.Raw.IsValid text ⟨span.start⟩ ∧
      String.Pos.Raw.IsValid text ⟨span.stop⟩ then
    some (String.extract (s := text) ⟨_, bounds.1⟩ ⟨_, bounds.2⟩)
  else none

/-- Takes tokens up to the end of input or a fault, and gives that beside them. -/
def Lexer.drain (lexer : Lexer) : List Token × Except LexError Token :=
  match taken : lexer.next with
  | (.error error, _) => ([], .error error)
  | (.ok token, after) =>
    if ends : token.isEof then ([], .ok token)
    else
      -- Every token before the end of input counts, so less is unread after it.
      have smaller : after.unread < lexer.unread := by
        have step := unread_next taken
        simp only [Token.weight, ends, Bool.false_eq_true, if_false] at step
        omega
      let (tokens, ending) := drain after
      (token :: tokens, ending)
termination_by lexer.unread

/-- The offset at which tokens end that begin at another offset. -/
def stopOf (position : Nat) (tokens : List Token) : Nat :=
  -- Without tokens nothing has been read.
  (tokens.getLast?.map (·.span.stop)).getD position

/-- What a token should say of a part of a text: the part itself, or a keyword in lower case. -/
def TokenKind.written (part : String) : TokenKind → String
  -- Only ASCII letters are lowered, and a keyword has no others.
  | .keyword _ => part.toLower
  | _ => part

/-- Whether the end of input or a fault is reported at an offset, with what the text has there. -/
def EndsAt (text : String) (position : Nat) : Except LexError Token → Prop
  -- Nothing may be left before the end of input, and a fault is shown where it stands.
  | .ok token => token = .eof position ∧ position = text.utf8ByteSize
  | .error (.unexpectedCharacter found rest) =>
    found = position ∧ Span.part? ⟨position, text.utf8ByteSize⟩ text = some rest
  | .error (.unterminatedQuote found delimiter) => found = position ∧
    ∃ rest, Span.part? ⟨position, text.utf8ByteSize⟩ text = some rest ∧
      rest.toList.head? = some delimiter

/-- Tokens that cover a text from its start to what ends it, without gaps and overlaps. -/
structure Tiles (text : String) (tokens : List Token) (ending : Except LexError Token) : Prop where
  /-- The first token begins where the text does. -/
  begins : ∀ token ∈ tokens.head?, token.span.start = 0
  /-- Each token begins where the one before it ends. -/
  joined : tokens.IsChain fun token next => token.span.stop = next.span.start
  /-- Each token covers some bytes, and so none is the end of input. -/
  nonempty : ∀ token ∈ tokens, token.isEof = false ∧ token.span.start < token.span.stop
  /-- Each token covers whole characters and says what they say. -/
  written : ∀ token ∈ tokens, ∃ part, token.span.part? text = some part ∧
    token.text = token.kind.written part
  /-- White space is taken in one token. -/
  apart : tokens.IsChain fun token next => ¬(token.isSpace = true ∧ next.isSpace = true)
  /-- The end of input or the fault is where the last token ends. -/
  ends : EndsAt text (stopOf 0 tokens) ending

variable {position : Nat} {chars left front back : List Char} {tokens : List Token}

section Bytes

/-- Characters take bytes. -/
theorem byteLength_pos (some : chars ≠ []) : 0 < byteLength chars := by
  obtain ⟨char, rest, rfl⟩ := List.exists_cons_of_ne_nil some
  have size := char.utf8Size_pos
  simp only [byteLength, List.foldr_cons]
  omega

/-- The span of characters between others cuts these characters out. -/
theorem Span.part?_eq {text : String} {taken : List Char}
    (whole : text.toList = front ++ (taken ++ back)) :
    Span.part? ⟨byteLength front, byteLength front + byteLength taken⟩ text =
      some (String.ofList taken) := by
  have parts : text = String.ofList front ++ (String.ofList taken ++ String.ofList back) := by
    rw [← String.ofList_append, ← String.ofList_append, ← whole, String.ofList_toList]
  -- Both offsets are where the text falls into two texts, so both are positions of it.
  have start : String.Pos.Raw.IsValid text ⟨byteLength front⟩ := by
    rw [String.Pos.Raw.isValid_iff_exists_append]
    exact ⟨_, _, parts, String.Pos.Raw.ext (byteLength_eq front)⟩
  have stop : String.Pos.Raw.IsValid text ⟨byteLength front + byteLength taken⟩ := by
    rw [String.Pos.Raw.isValid_iff_exists_append, ← byteLength_append]
    refine ⟨String.ofList front ++ String.ofList taken, String.ofList back, ?_, ?_⟩
    · rw [String.append_assoc, parts]
    · rw [← String.ofList_append]
      exact String.Pos.Raw.ext (byteLength_eq _)
  rw [Span.part?, dif_pos ⟨start, stop⟩, Option.some.injEq, ← String.toByteArray_inj,
    String.toByteArray_extract]
  -- Between the offsets are the bytes of the characters taken.
  have size : ∀ chars : List Char, byteLength chars = (String.ofList chars).toByteArray.size :=
    byteLength_eq
  simp only [parts, String.toByteArray_append, size]
  rw [← Nat.add_zero (String.ofList front).toByteArray.size, Nat.add_assoc, Nat.zero_add,
    ByteArray.extract_append_size_add, ByteArray.extract_append_eq_left rfl]

/-- Characters at the end of a text are cut out by the span to its end. -/
theorem Span.part?_rest {text : String} (whole : text.toList = front ++ left) :
    Span.part? ⟨byteLength front, text.utf8ByteSize⟩ text = some (String.ofList left) := by
  have size : text.utf8ByteSize = byteLength front + byteLength left := by
    rw [← byteLength_append, ← whole, byteLength_eq, String.ofList_toList]
  rw [size]
  have parts : text.toList = front ++ (left ++ []) := by rw [whole, List.append_nil]
  exact Span.part?_eq parts

end Bytes

section Splitting

/-- Without tokens nothing has been read. -/
@[simp] theorem stopOf_nil : stopOf position [] = position := rfl

/-- Tokens end where those after the first do. -/
@[simp] theorem stopOf_cons {token : Token} :
    stopOf position (token :: tokens) = stopOf token.span.stop tokens := by
  rw [stopOf, stopOf, List.getLast?_cons]
  cases tokens.getLast? <;> rfl

/-- A token says what its category makes of the characters that it was read from. -/
theorem TokenKind.textOf_eq {kind : TokenKind} {taken : List Char} (admitted : kind.Admits taken) :
    kind.textOf taken = kind.written (String.ofList taken) := by
  cases kind with
  | keyword word => exact (Keyword.ofText?_eq_some.1 admitted.2).symm
  | _ => rfl

namespace Splits

/-- What is left stands where the tokens end. -/
theorem exists_stop (splits : Splits position chars tokens left) :
    ∃ front, chars = front ++ left ∧ stopOf position tokens = position + byteLength front := by
  induction splits with
  | done => exact ⟨[], rfl, rfl⟩
  | @token position chars taken _ _ _ _ found _ ih =>
    obtain ⟨front, rfl, stop⟩ := ih
    refine ⟨taken ++ front, ?_, ?_⟩
    · rw [List.append_assoc, append_of_readLexeme found]
    · rw [stopOf_cons, stop, byteLength_append, Nat.add_assoc]

/-- The first token begins where the characters do. -/
theorem begins (splits : Splits position chars tokens left) :
    ∀ token ∈ tokens.head?, token.span.start = position := by
  cases splits with
  | done => simp
  | token _ _ => simp

/-- Each token begins where the one before it ends. -/
theorem joined (splits : Splits position chars tokens left) :
    tokens.IsChain fun token next => token.span.stop = next.span.start := by
  induction splits with
  | done => exact .nil
  | token _ splits ih =>
    rw [List.isChain_cons]
    exact ⟨fun next first => (splits.begins next first).symm, ih⟩

/-- White space is taken to its end, so the next token is none. -/
theorem apart (splits : Splits position chars tokens left) :
    tokens.IsChain fun token next => ¬(token.isSpace = true ∧ next.isSpace = true) := by
  induction splits with
  | done => exact .nil
  | token found splits ih =>
    rw [List.isChain_cons]
    refine ⟨?_, ih⟩
    rintro next first ⟨space, again⟩
    obtain rfl := beq_iff_eq.1 space
    have stops := (admits_of_readLexeme found).2
    -- A second token of white space would begin with a blank, where the first has ended.
    cases splits with
    | done => cases first
    | @token _ _ taken _ _ _ _ inner _ =>
      obtain rfl := Option.some.inj first
      obtain rfl := beq_iff_eq.1 again
      obtain ⟨nonempty, blanks⟩ := (admits_of_readLexeme inner).1
      obtain ⟨char, others, rfl⟩ := List.exists_cons_of_ne_nil nonempty
      have blank := stops char (by simp [← append_of_readLexeme inner])
      rw [blanks char (by simp)] at blank
      cases blank

/-- Each token covers the characters that it was read from, and says what they say. -/
theorem covers {text : String} (splits : Splits 0 text.toList tokens left) :
    ∀ token ∈ tokens, (token.isEof = false ∧ token.span.start < token.span.stop) ∧
      ∃ part, token.span.part? text = some part ∧ token.text = token.kind.written part := by
  intro token member
  obtain ⟨before, after, rfl⟩ := List.append_of_mem member
  -- The text is cut in front of the token, which is read from what is behind.
  obtain ⟨front, mid, whole, _, behind⟩ := splits.exists_of_append
  cases behind with
  | @token _ _ taken rest _ kind _ found _ =>
    have admitted := (admits_of_readLexeme found).1
    have size := byteLength_pos (taken_ne_nil_of_readLexeme found)
    rw [← append_of_readLexeme found] at whole
    refine ⟨⟨(Token.lexeme_of_admits _ admitted).1, ?_⟩, String.ofList taken, ?_, ?_⟩
    · show 0 + byteLength front < 0 + byteLength front + byteLength taken
      omega
    · rw [Nat.zero_add]
      exact Span.part?_eq whole
    · exact TokenKind.textOf_eq admitted

end Splits

end Splitting

section Draining

/-- A fault comes before any token. -/
theorem Lexer.drain_failed {lexer after : Lexer} {error : LexError}
    (taken : lexer.next = (.error error, after)) : lexer.drain = ([], .error error) := by
  rw [drain]
  split
  · rename_i other
    rw [taken] at other
    simp only [Prod.mk.injEq, Except.error.injEq] at other
    rw [other.1]
  · rename_i other
    rw [taken] at other
    simp at other

/-- The end of input comes before any other token. -/
theorem Lexer.drain_ended {lexer after : Lexer} {token : Token}
    (taken : lexer.next = (.ok token, after)) (ending : token.isEof = true) :
    lexer.drain = ([], .ok token) := by
  rw [drain]
  split
  · rename_i other
    rw [taken] at other
    simp at other
  · rename_i other
    rw [taken] at other
    simp only [Prod.mk.injEq, Except.ok.injEq] at other
    obtain ⟨rfl, rfl⟩ := other
    rw [dif_pos ending]

/-- A token comes before those after it. -/
theorem Lexer.drain_token {lexer after : Lexer} {token : Token}
    (taken : lexer.next = (.ok token, after)) (real : token.isEof = false) :
    lexer.drain = (token :: after.drain.1, after.drain.2) := by
  rw [drain]
  split
  · rename_i other
    rw [taken] at other
    simp at other
  · rename_i other
    rw [taken] at other
    simp only [Prod.mk.injEq, Except.ok.injEq] at other
    obtain ⟨rfl, rfl⟩ := other
    rw [dif_neg (by simp [real])]

/-- A lexer takes the tokens that its text splits into, up to where no token can be read. -/
theorem Lexer.exists_splits_drain (chars : List Char) (position : Nat) :
    ∃ tokens left, Splits position chars tokens left ∧
      (∀ kind taken rest, readLexeme left ≠ .lexeme kind taken rest) ∧
      (⟨chars, position, []⟩ : Lexer).drain =
        (tokens, (⟨left, stopOf position tokens, []⟩ : Lexer).scan.1) := by
  -- Each token shortens the text, so the induction is on its length.
  induction size : chars.length using Nat.strong_induction_on generalizing chars position with
  | _ size ih =>
    subst size
    have scanned : (⟨chars, position, []⟩ : Lexer).next = _ := Lexer.next_eq_scan rfl
    cases found : readLexeme chars with
    | finished =>
      have step := scanned
      simp only [Lexer.scan, found] at step
      refine ⟨[], chars, .done, by simp [found], ?_⟩
      rw [Lexer.drain_ended step rfl, stopOf_nil, ← scanned, step]
    | unclosed delimiter =>
      have step := scanned
      simp only [Lexer.scan, found] at step
      refine ⟨[], chars, .done, by simp [found], ?_⟩
      rw [Lexer.drain_failed step, stopOf_nil, ← scanned, step]
    | unknown =>
      have step := scanned
      simp only [Lexer.scan, found] at step
      refine ⟨[], chars, .done, by simp [found], ?_⟩
      rw [Lexer.drain_failed step, stopOf_nil, ← scanned, step]
    | lexeme kind taken rest =>
      simp only [Lexer.scan, found] at scanned
      have real := (Token.lexeme_of_admits ⟨position, position + byteLength taken⟩
        (admits_of_readLexeme found).1).1
      obtain ⟨tokens, left, splits, stops, drained⟩ :=
        ih _ (rest_shorter_of_readLexeme found) rest (position + byteLength taken) rfl
      refine ⟨_, left, .token found splits, stops, ?_⟩
      rw [Lexer.drain_token scanned real, drained, stopOf_cons]

/-- A delimiter without its partner is what the text begins with. -/
theorem head?_of_readLexeme_unclosed {delimiter : Char}
    (found : readLexeme chars = .unclosed delimiter) : chars.head? = some delimiter := by
  -- Of all outcomes only the last names a delimiter, and it is the first character.
  unfold readLexeme at found
  split at found
  · cases found
  repeat' split at found
  all_goals cases found
  rfl

/-- What stops a lexer is the end of its text, or a character that begins no token. -/
theorem Lexer.endsAt_scan {text : String} (whole : text.toList = front ++ left)
    (stops : ∀ kind taken rest, readLexeme left ≠ .lexeme kind taken rest) :
    EndsAt text (byteLength front) (⟨left, byteLength front, []⟩ : Lexer).scan.1 := by
  have shown := Span.part?_rest whole
  unfold Lexer.scan
  cases found : readLexeme left with
  | finished =>
    refine ⟨rfl, ?_⟩
    -- Nothing is left, so the front is the text.
    rw [readLexeme_eq_finished.1 found, List.append_nil] at whole
    rw [← whole, byteLength_eq, String.ofList_toList]
  | lexeme kind taken rest => exact absurd found (stops kind taken rest)
  | unclosed delimiter =>
    refine ⟨rfl, _, shown, ?_⟩
    rw [String.toList_ofList]
    exact head?_of_readLexeme_unclosed found
  | unknown => exact ⟨rfl, shown⟩

end Draining

/-- The tokens taken from a text tile it, up to the end of input or the first fault. -/
theorem drain_tiles (text : String) :
    Tiles text (Lexer.ofText text).drain.1 (Lexer.ofText text).drain.2 := by
  obtain ⟨tokens, left, splits, stops, drained⟩ := Lexer.exists_splits_drain text.toList 0
  obtain ⟨front, whole, stop⟩ := splits.exists_stop
  rw [Lexer.ofText, drained]
  exact {
    begins := splits.begins
    joined := splits.joined
    nonempty := fun token member => (splits.covers token member).1
    written := fun token member => (splits.covers token member).2
    apart := splits.apart
    ends := by
      rw [stop, Nat.zero_add]
      exact Lexer.endsAt_scan whole stops }

end SelectSql
