import SelectSql.Token.Lexeme

/-! A token takes a nonempty piece off the front of a text and leaves the remainder untouched. -/

namespace SelectSql

/-- Closing a quote splits the text in two and loses nothing. -/
theorem QuoteStyle.append_of_close? {style : QuoteStyle} {chars body after : List Char}
    (closed : style.close? chars = some (body, after)) : body ++ after = chars := by
  -- Each step hands one or two characters to the body.
  fun_induction QuoteStyle.close? style chars generalizing body after with
  | case1 => simp at closed
  | case2 => simp_all
  | case3 => simp at closed
  | case4 char next rest _ ih =>
    -- An escape or a doubled delimiter is handed over whole.
    obtain ⟨⟨inner, left⟩, split, same⟩ := Option.map_eq_some_iff.1 closed
    simp only [Prod.mk.injEq] at same
    obtain ⟨rfl, rfl⟩ := same
    simp [ih split]
  | case5 =>
    -- The closing delimiter ends the body, and the rest stays.
    simp only [Option.some.injEq, Prod.mk.injEq] at closed
    simp [← closed.1, ← closed.2]
  | case6 char next rest _ _ ih =>
    -- Any other character is handed over alone.
    obtain ⟨⟨inner, left⟩, split, same⟩ := Option.map_eq_some_iff.1 closed
    simp only [Prod.mk.injEq] at same
    obtain ⟨rfl, rfl⟩ := same
    simp [ih split]

/-- A number and what follows it make up the text. -/
theorem splitNumber_append (chars : List Char) :
    (splitNumber chars).1 ++ (splitNumber chars).2 = chars := by
  -- The fraction, if there is one, is split off what the leading digits left.
  have whole := List.takeWhile_append_dropWhile (p := Char.isDigit) (l := chars)
  unfold splitNumber
  split
  · rename_i digit rest found
    rw [found] at whole
    split <;> simp [whole]
  · exact whole

/-- A text that begins with a digit begins with a nonempty number. -/
theorem splitNumber_ne_nil {char : Char} {rest : List Char} (digit : char.isDigit = true) :
    (splitNumber (char :: rest)).1 ≠ [] := by
  -- The leading digits alone already include the first character.
  simp only [splitNumber, List.takeWhile_cons_of_pos digit]
  split
  · split <;> simp
  · simp

/-- Every mark has a character. -/
theorem Mark.chars_ne_nil (sign : Mark) : sign.chars ≠ [] := by
  -- Each constructor lists its characters.
  cases sign <;> simp [Mark.chars]

/-- The mark found at the front of a text is followed by the rest of it. -/
theorem Mark.append_of_leading? {chars : List Char} {sign : Mark}
    (found : Mark.leading? chars = some sign) :
    sign.chars ++ chars.drop sign.chars.length = chars := by
  -- The search accepts only marks whose characters begin the text.
  have begins := List.find?_some found
  obtain ⟨rest, same⟩ := List.isPrefixOf_iff_prefix.1 begins
  simp [← same]

/-- The characters of a token and those after it make up the text. -/
theorem append_of_readLexeme {chars taken rest : List Char} {kind : TokenKind}
    (found : readLexeme chars = .lexeme kind taken rest) : taken ++ rest = chars := by
  -- Each category splits the text in a way of its own, and none of them drops a character.
  unfold readLexeme at found
  split at found
  · simp at found
  · rename_i char others
    simp only at found
    split at found
    · simp only [Reading.lexeme.injEq] at found
      obtain ⟨_, rfl, rfl⟩ := found
      exact splitNumber_append _
    -- A word and white space are both the longest run of their characters.
    split at found
    · simp only [Reading.lexeme.injEq] at found
      obtain ⟨_, rfl, rfl⟩ := found
      exact List.takeWhile_append_dropWhile
    split at found
    · simp only [Reading.lexeme.injEq] at found
      obtain ⟨_, rfl, rfl⟩ := found
      exact List.takeWhile_append_dropWhile
    split at found
    · -- A mark was found because it begins the text.
      rename_i sign leading
      simp only [Reading.lexeme.injEq] at found
      obtain ⟨_, rfl, rfl⟩ := found
      exact Mark.append_of_leading? leading
    split at found
    · simp at found
    split at found
    · -- The opening delimiter comes before the body that was closed.
      rename_i body after closed
      simp only [Reading.lexeme.injEq] at found
      obtain ⟨_, rfl, rfl⟩ := found
      simp [QuoteStyle.append_of_close? closed]
    · simp at found

/-- A token takes at least one character. -/
theorem taken_ne_nil_of_readLexeme {chars taken rest : List Char} {kind : TokenKind}
    (found : readLexeme chars = .lexeme kind taken rest) : taken ≠ [] := by
  -- The test that chooses the category has accepted the first character already.
  unfold readLexeme at found
  split at found
  · simp at found
  · rename_i char others
    simp only at found
    split at found
    · rename_i digit
      simp only [Reading.lexeme.injEq] at found
      obtain ⟨_, rfl, rfl⟩ := found
      exact splitNumber_ne_nil digit
    -- A run begins with the character that the test has accepted.
    split at found
    · rename_i word
      simp only [Reading.lexeme.injEq] at found
      obtain ⟨_, rfl, rfl⟩ := found
      simp [List.takeWhile_cons_of_pos word]
    split at found
    · rename_i blank
      simp only [Reading.lexeme.injEq] at found
      obtain ⟨_, rfl, rfl⟩ := found
      simp [List.takeWhile_cons_of_pos blank]
    split at found
    · -- No mark is empty.
      rename_i sign _
      simp only [Reading.lexeme.injEq] at found
      obtain ⟨_, rfl, rfl⟩ := found
      exact sign.chars_ne_nil
    split at found
    · simp at found
    split at found
    · simp only [Reading.lexeme.injEq] at found
      obtain ⟨_, rfl, rfl⟩ := found
      simp
    · simp at found

/-- What follows a token is shorter than the text that holds it. -/
theorem rest_shorter_of_readLexeme {chars taken rest : List Char} {kind : TokenKind}
    (found : readLexeme chars = .lexeme kind taken rest) : rest.length < chars.length := by
  -- The text is the token followed by the rest, and the token is not empty.
  have whole := append_of_readLexeme found
  have taken := List.length_pos_iff.2 (taken_ne_nil_of_readLexeme found)
  rw [← whole, List.length_append]
  omega

end SelectSql
