import SelectSql.Proofs.Lexical.Scans

/-!
The tokens of a text and their places. A text splits into tokens that follow one another without
gaps, so the offset of a token tells which characters are in front of it.
-/

namespace SelectSql

/-- The tokens that characters at a byte offset begin with, and the characters after these. -/
inductive Splits : Nat → List Char → List Token → List Char → Prop where
  | done {position : Nat} {chars : List Char} : Splits position chars [] chars
  | token {position : Nat} {chars taken rest left : List Char} {kind : TokenKind}
      {tokens : List Token} (found : readLexeme chars = .lexeme kind taken rest)
      (splits : Splits (position + byteLength taken) rest tokens left) :
      Splits position chars
        (⟨kind, kind.textOf taken, ⟨position, position + byteLength taken⟩⟩ :: tokens) left

variable {position : Nat} {chars left rest : List Char} {text : String}
  {tokens others before after : List Token} {token : Token}

section Lengths

/-- Two texts in a row take the bytes of both. -/
@[simp] theorem byteLength_append (chars others : List Char) :
    byteLength (chars ++ others) = byteLength chars + byteLength others := by
  induction chars with
  | nil => simp [byteLength]
  | cons char chars ih =>
    simp only [byteLength, List.cons_append, List.foldr_cons] at ih ⊢
    omega

/-- The bytes of characters are those of the text that they make up. -/
theorem byteLength_eq (chars : List Char) :
    byteLength chars = (String.ofList chars).utf8ByteSize := by
  induction chars with
  | nil => rfl
  | cons char chars ih =>
    rw [← List.singleton_append, byteLength_append, String.ofList_append,
      String.utf8ByteSize_append, ih, ← String.singleton_eq_ofList, String.utf8ByteSize_singleton]
    rfl

/-- The front of a text is known by the number of its bytes. -/
theorem eq_of_byteLength_eq {front other : List Char} (whole : front ++ left = other ++ rest)
    (same : byteLength front = byteLength other) : front = other ∧ left = rest := by
  -- Every character takes a byte at least.
  have some : ∀ (char : Char) (chars : List Char), byteLength (char :: chars) ≠ 0 := by
    intro char chars
    have size := char.utf8Size_pos
    simp only [byteLength, List.foldr_cons]
    omega
  induction front generalizing other with
  | nil =>
    cases other with
    | nil => exact ⟨rfl, whole⟩
    | cons char other => exact absurd same.symm (some char other)
  | cons char front ih =>
    cases other with
    | nil => exact absurd same (some char front)
    | cons next other =>
      obtain ⟨rfl, tail⟩ := List.cons.inj whole
      simp only [byteLength, List.foldr_cons, Nat.add_left_cancel_iff] at same
      obtain ⟨rfl, rest⟩ := ih tail same
      exact ⟨rfl, rest⟩

end Lengths

namespace Splits

/-- The lexemes of the tokens are read from the same characters. -/
theorem scans (splits : Splits position chars tokens left) :
    Scans chars (tokens.map Token.lexeme) left := by
  induction splits with
  | done => exact .done
  | token found _ ih => exact .token found ih

/-- Tokens in a row are split off one part after the other, at the offset where they stand. -/
theorem exists_of_append (splits : Splits position chars (tokens ++ others) left) :
    ∃ front mid, chars = front ++ mid ∧ Splits position chars tokens mid ∧
      Splits (position + byteLength front) mid others left := by
  -- Each token of the first part moves the offset on by its own bytes.
  induction tokens generalizing position chars with
  | nil => exact ⟨[], chars, rfl, .done, splits⟩
  | cons token tokens ih =>
    cases splits with
    | @token _ _ taken rest _ kind _ found splits =>
      obtain ⟨front, mid, rfl, first, second⟩ := ih splits
      refine ⟨taken ++ front, mid, ?_, .token found first, ?_⟩
      · rw [List.append_assoc, append_of_readLexeme found]
      · rw [byteLength_append, ← Nat.add_assoc]
        exact second

/-- What tokens are read from splits in the same way by itself. -/
theorem scans_front {front : List Char} (splits : Splits position (front ++ left) tokens left) :
    Scans front (tokens.map Token.lexeme) [] := by
  obtain ⟨alone, parts, scans⟩ := splits.scans.exists_front
  rw [List.append_cancel_right parts]
  exact scans

end Splits

/-- Characters that split into lexemes split into tokens with these, wherever they stand. -/
theorem Scans.exists_splits {lexemes : List Lexeme} (scans : Scans chars lexemes left)
    (position : Nat) : ∃ tokens, Splits position chars tokens left := by
  induction scans generalizing position with
  | done => exact ⟨[], .done⟩
  | @token _ taken _ _ _ _ found _ ih =>
    obtain ⟨tokens, splits⟩ := ih (position + byteLength taken)
    exact ⟨_, .token found splits⟩

/-- A lexer gives the tokens of its text, and after them the end of input at the last offset. -/
theorem Splits.tokenizeAll_eq (splits : Splits position chars tokens []) :
    (⟨chars, position, []⟩ : Lexer).tokenizeAll.1 =
      .ok (tokens ++ [.eof (position + byteLength chars)]) := by
  generalize ends : ([] : List Char) = left at splits
  induction splits with
  | done =>
    subst ends
    exact Lexer.tokenizeAll_ended (Lexer.next_eq_ok.2 (Or.inl ⟨rfl, rfl, rfl⟩)) rfl
  | @token position chars taken rest left kind tokens found _ ih =>
    -- A token that was read is not the end of input, so the lexer goes on after it.
    have real := (Token.lexeme_of_admits ⟨position, position + byteLength taken⟩
      (admits_of_readLexeme found).1).1
    have next : (⟨chars, position, []⟩ : Lexer).next =
        (.ok ⟨kind, kind.textOf taken, ⟨position, position + byteLength taken⟩⟩,
          ⟨rest, position + byteLength taken, []⟩) :=
      Lexer.next_eq_ok.2 (Or.inr ⟨kind, taken, rest, found, rfl, rfl⟩)
    rw [Lexer.tokenizeAll_token next real, ih ends, ← append_of_readLexeme found,
      byteLength_append, Nat.add_assoc]
    rfl

/-- The tokens of a text split it to its end, where the end of input comes after them. -/
theorem tokenize_eq_ok :
    tokenize text = .ok tokens ↔ ∃ front, tokens = front ++ [.eof (byteLength text.toList)] ∧
      Splits 0 text.toList front [] := by
  have given : ∀ front, Splits 0 text.toList front [] →
      tokenize text = .ok (front ++ [.eof (byteLength text.toList)]) := by
    intro front splits
    have whole := splits.tokenizeAll_eq
    rwa [Nat.zero_add] at whole
  constructor
  · intro split
    -- A text that is tokenized splits in some way, and its tokens are then those of the split.
    obtain ⟨lexemes, shown, _⟩ := shows_of_tokenize split
    obtain ⟨front, splits⟩ := (shows_iff_scans.1 shown).exists_splits 0
    rw [given front splits] at split
    exact ⟨front, (Except.ok.inj split).symm, splits⟩
  · rintro ⟨front, rfl, splits⟩
    exact given front splits

/-- A text may be cut in front of any token of it: both parts split as they do in the whole. -/
theorem scans_of_cut (split : tokenize text = .ok (before ++ token :: after))
    (real : token.isEof = false) :
    ∃ first rest, text.toList = first ++ rest ∧ token.position = byteLength first ∧
      Scans first (before.map Token.lexeme) [] ∧
      ∃ lexemes, Scans rest (token.lexeme :: lexemes) [] := by
  obtain ⟨front, shape, splits⟩ := tokenize_eq_ok.1 split
  -- The token is not the end of input, so it is one of those before that.
  obtain ⟨more, rfl⟩ : ∃ more, front = before ++ token :: more := by
    rcases List.eq_nil_or_concat after with rfl | ⟨more, last, rfl⟩
    · obtain ⟨_, same⟩ := List.append_inj' shape rfl
      obtain ⟨rfl, _⟩ := List.cons.inj same
      cases real
    · rw [List.concat_eq_append, ← List.cons_append, ← List.append_assoc] at shape
      exact ⟨more, (List.append_inj' shape rfl).1.symm⟩
  obtain ⟨first, rest, whole, ahead, behind⟩ := splits.exists_of_append
  have place : token.position = byteLength first := by
    cases behind with
    | token found behind => exact Nat.zero_add _
  rw [whole] at ahead
  exact ⟨first, rest, whole, place, ahead.scans_front, more.map Token.lexeme, behind.scans⟩

end SelectSql
