import SelectSql.Proofs.Lexical.Split

/-!
The lexical grammar as a grammar of whole texts. A text has tokens exactly if it can be cut into
pieces of seven forms, none of which goes on into the next, and it can be cut in one way only.
-/

namespace SelectSql

/-- The forms that a piece of a text may have. -/
inductive Form where
  /-- Digits, with a fraction or without. -/
  | number
  /-- A keyword or a bare name. -/
  | word
  /-- A run of white space. -/
  | blanks
  /-- An operator or structural punctuation. -/
  | mark
  /-- A text between single quotes. -/
  | string
  /-- A name between double quotes. -/
  | quotedName
  /-- A name between back-ticks. -/
  | tickedName
  deriving DecidableEq, Repr

namespace Form

/-- The pieces of a form. -/
def Fits (piece : List Char) : Form → Prop
  -- A quoted text is whole with both of its delimiters.
  | number => IsNumber piece
  | word => IsWord piece
  | blanks => piece ≠ [] ∧ ∀ char ∈ piece, isBlank char = true
  | mark => ∃ sign : Mark, piece = sign.chars
  | string => QuoteStyle.single.Quotes piece
  | quotedName => QuoteStyle.double.Quotes piece
  | tickedName => QuoteStyle.backTick.Quotes piece

/-- Whether a piece of a form stops in front of what comes after it. -/
def Stops (piece rest : List Char) : Form → Prop
  -- A name between double quotes always stops, since its delimiter cannot be doubled.
  | number => (∀ char ∈ rest.head?, char.isDigit = false) ∧
      ('.' ∉ piece → ∀ digit others, rest = '.' :: digit :: others → digit.isDigit = false)
  | word => ∀ char ∈ rest.head?, isWordChar char = false
  | blanks => ∀ char ∈ rest.head?, isBlank char = false
  | mark => (piece = ['<'] → rest.head? ≠ some '=' ∧ rest.head? ≠ some '>') ∧
      (piece = ['>'] → rest.head? ≠ some '=')
  | string => rest.head? ≠ some '\''
  | quotedName => True
  | tickedName => rest.head? ≠ some '\x60'

/-- The category of the token that a piece of a form is. -/
def kind (piece : List Char) : Form → TokenKind
  -- Only a word may be of two categories.
  | number => .literal
  | word => wordKind piece
  | blanks => .space
  | mark => .mark
  | string => .literal
  | quotedName => .identifier
  | tickedName => .identifier

/-- The form of the pieces that begin with a character. -/
def ofFirst (first : Char) : Form :=
  -- Whatever begins no other form can only begin a mark.
  if first.isDigit then number
  else if isWordChar first then word
  else if isBlank first then blanks
  else if first = '\'' then string
  else if first = '"' then quotedName
  else if first = '\x60' then tickedName
  else mark

end Form

/-- Cuts characters into pieces with their forms, each of which stops before the rest. -/
inductive Cuts : List Char → List (Form × List Char) → Prop where
  | nil : Cuts [] []
  | cons {form : Form} {piece rest : List Char} {pieces : List (Form × List Char)}
      (fits : form.Fits piece) (stops : form.Stops piece rest) (cuts : Cuts rest pieces) :
      Cuts (piece ++ rest) ((form, piece) :: pieces)

/-- The tokens that pieces are from a byte offset on, the end of input last. -/
def tokensOf (position : Nat) : List (Form × List Char) → List Token
  -- Each piece begins where the one before it has ended.
  | [] => [.eof position]
  | (form, piece) :: pieces =>
    let kind := form.kind piece
    let stop := position + byteLength piece
    ⟨kind, kind.textOf piece, ⟨position, stop⟩⟩ :: tokensOf stop pieces

variable {form : Form} {piece rest chars : List Char} {pieces others : List (Form × List Char)}
  {position : Nat}

section Words

/-- A word is a keyword exactly if its letters in lower case spell it. -/
theorem wordKind_eq_keyword {word : Keyword} :
    wordKind piece = .keyword word ↔ (String.ofList piece).toLower = word.text := by
  rw [← Keyword.ofText?_eq_some, wordKind]
  cases Keyword.ofText? (String.ofList piece) <;> simp

/-- A word is a name exactly if its letters in lower case spell no keyword. -/
theorem wordKind_eq_identifier :
    wordKind piece = .identifier ↔
      ∀ word : Keyword, (String.ofList piece).toLower ≠ word.text := by
  simp only [ne_eq, ← Keyword.ofText?_eq_some, wordKind]
  cases Keyword.ofText? (String.ofList piece) <;> simp

end Words

namespace Form

/-- A piece is not empty, and its first character tells its form. -/
theorem Fits.exists_first (fits : form.Fits piece) :
    ∃ first others, piece = first :: others ∧ form = ofFirst first := by
  cases form with
  | number =>
    -- The whole part has a digit to begin with.
    obtain ⟨whole, nonempty, digits, shape⟩ := fits
    obtain ⟨digit, others, rfl⟩ := List.exists_cons_of_ne_nil nonempty
    have leading := digits digit (by simp)
    rcases shape with rfl | ⟨fraction, _, _, rfl⟩
    · exact ⟨digit, others, rfl, by simp [ofFirst, leading]⟩
    · exact ⟨digit, _, List.cons_append .., by simp [ofFirst, leading]⟩
  | word =>
    obtain ⟨first, others, rfl, starts, noDigit, _⟩ := fits
    exact ⟨first, others, rfl, by simp [ofFirst, starts, noDigit]⟩
  | blanks =>
    obtain ⟨nonempty, inside⟩ := fits
    obtain ⟨first, others, rfl⟩ := List.exists_cons_of_ne_nil nonempty
    have blank := inside first (by simp)
    obtain ⟨noWord, noDigit⟩ := not_isWordChar_of_isBlank blank
    exact ⟨first, others, rfl, by simp [ofFirst, noWord, noDigit, blank]⟩
  | mark =>
    obtain ⟨sign, rfl⟩ := fits
    cases sign <;> exact ⟨_, _, rfl, rfl⟩
  | string =>
    obtain ⟨body, _, rfl⟩ := fits
    exact ⟨_, _, rfl, rfl⟩
  | quotedName =>
    obtain ⟨body, _, rfl⟩ := fits
    exact ⟨_, _, rfl, rfl⟩
  | tickedName =>
    obtain ⟨body, _, rfl⟩ := fits
    exact ⟨_, _, rfl, rfl⟩

/-- A piece has one form only. -/
theorem Fits.unique {other : Form} (fits : form.Fits piece) (again : other.Fits piece) :
    form = other := by
  obtain ⟨first, others, rfl, rfl⟩ := fits.exists_first
  obtain ⟨_, _, same, rfl⟩ := again.exists_first
  rw [(List.cons.inj same).1]

/-- A piece that stops before the rest is read whole, as a token of its category. -/
theorem Fits.readLexeme_eq (fits : form.Fits piece) (stops : form.Stops piece rest) :
    readLexeme (piece ++ rest) = .lexeme (form.kind piece) piece rest := by
  -- Each form has its own rule in the lexer.
  cases form with
  | number => exact readLexeme_number fits stops.1 stops.2
  | word => exact readLexeme_word fits stops
  | blanks => exact readLexeme_space fits.1 fits.2 stops
  | mark =>
    obtain ⟨sign, rfl⟩ := fits
    exact readLexeme_mark sign stops
  | string =>
    have opens : QuoteStyle.ofDelimiter? '\'' = some .single := rfl
    exact readLexeme_quoted opens fits fun _ => stops
  | quotedName =>
    have opens : QuoteStyle.ofDelimiter? '"' = some .double := rfl
    exact readLexeme_quoted opens fits nofun
  | tickedName =>
    have opens : QuoteStyle.ofDelimiter? '\x60' = some .backTick := rfl
    exact readLexeme_quoted opens fits fun _ => stops

/-- Whatever is read is a piece of some form, and stops before the rest. -/
theorem exists_of_readLexeme {kind : TokenKind}
    (found : readLexeme chars = .lexeme kind piece rest) :
    ∃ form : Form, form.Fits piece ∧ form.Stops piece rest ∧ form.kind piece = kind := by
  obtain ⟨admitted, ends⟩ := admits_of_readLexeme found
  -- Names and literals have several forms, and the other categories one.
  cases kind with
  | keyword word =>
    exact ⟨.word, admitted.1, ends, by simp only [Form.kind, wordKind, admitted.2]⟩
  | identifier =>
    have admitted : IsName (String.ofList piece) := admitted
    rw [IsName, String.toList_ofList] at admitted
    rcases admitted with ⟨word, unknown⟩ | quoted | quoted
    · exact ⟨.word, word, ends.1 word, by simp only [Form.kind, wordKind, unknown]⟩
    · exact ⟨.quotedName, quoted, trivial, rfl⟩
    · have quotes := quoted
      obtain ⟨body, _, rfl⟩ := quoted
      exact ⟨.tickedName, quotes, ends.2 rfl, rfl⟩
  | literal =>
    have admitted : IsLiteral (String.ofList piece) := admitted
    rw [IsLiteral, String.toList_ofList] at admitted
    rcases admitted with number | quoted
    · exact ⟨.number, number, ends.1 number, rfl⟩
    · have quotes := quoted
      obtain ⟨body, _, rfl⟩ := quoted
      exact ⟨.string, quotes, ends.2 rfl, rfl⟩
  | mark => exact ⟨.mark, admitted, ends, rfl⟩
  | space => exact ⟨.blanks, admitted, ends, rfl⟩
  | eof => exact admitted.elim

end Form

namespace Cuts

/-- A text can be cut in one way only. -/
theorem unique (cuts : Cuts chars pieces) (again : Cuts chars others) : others = pieces := by
  -- The lexer reads one piece at the front of a text, and every cut has to begin with it.
  induction cuts generalizing others with
  | nil =>
    generalize none : ([] : List Char) = chars at again
    cases again with
    | nil => rfl
    | cons fits _ _ =>
      obtain ⟨first, inner, rfl, _⟩ := fits.exists_first
      cases none
  | @cons form piece rest pieces fits stops _ ih =>
    have found := fits.readLexeme_eq stops
    generalize whole : piece ++ rest = chars at again found
    cases again with
    | nil => cases found
    | cons fits' stops' cuts' =>
      rw [fits'.readLexeme_eq stops'] at found
      simp only [Reading.lexeme.injEq] at found
      obtain ⟨_, rfl, rfl⟩ := found
      rw [fits.unique fits', ih cuts']

/-- The tokens of the pieces are those that the text splits into. -/
theorem exists_splits (cuts : Cuts chars pieces) (position : Nat) :
    ∃ tokens, Splits position chars tokens [] ∧
      tokensOf position pieces = tokens ++ [.eof (position + byteLength chars)] := by
  induction cuts generalizing position with
  | nil => exact ⟨[], .done, rfl⟩
  | @cons form piece rest pieces fits stops _ ih =>
    obtain ⟨tokens, splits, same⟩ := ih (position + byteLength piece)
    refine ⟨_, .token (fits.readLexeme_eq stops) splits, ?_⟩
    rw [tokensOf, same, byteLength_append, Nat.add_assoc, List.cons_append]

end Cuts

/-- Characters that split into tokens can be cut into pieces. -/
theorem Splits.exists_cuts {tokens : List Token} (splits : Splits position chars tokens []) :
    ∃ pieces, Cuts chars pieces := by
  generalize ends : ([] : List Char) = left at splits
  induction splits with
  | done =>
    subst ends
    exact ⟨[], .nil⟩
  | token found _ ih =>
    obtain ⟨pieces, cuts⟩ := ih ends
    obtain ⟨form, fits, stops, _⟩ := Form.exists_of_readLexeme found
    rw [← append_of_readLexeme found]
    exact ⟨_, .cons fits stops cuts⟩

/-- A text has tokens exactly if it can be cut into pieces, which can be done in one way only and
gives these tokens. A word is the keyword that it spells in lower case, or else a name. -/
theorem tokenize_cuts (text : String) :
    ((∃ tokens, tokenize text = .ok tokens) ↔ ∃ pieces, Cuts text.toList pieces) ∧
      ∀ pieces, Cuts text.toList pieces →
        (∀ others, Cuts text.toList others → others = pieces) ∧
        tokenize text = .ok (tokensOf 0 pieces) ∧
        ∀ piece, (.word, piece) ∈ pieces →
          (∀ word : Keyword, Form.word.kind piece = .keyword word ↔
            (String.ofList piece).toLower = word.text) ∧
          (Form.word.kind piece = .identifier ↔
            ∀ word : Keyword, (String.ofList piece).toLower ≠ word.text) := by
  -- A cut tells the tokens, so whatever is said of tokens is said of the one cut there is.
  have given : ∀ pieces, Cuts text.toList pieces → tokenize text = .ok (tokensOf 0 pieces) := by
    intro pieces cuts
    obtain ⟨tokens, splits, same⟩ := cuts.exists_splits 0
    rw [Nat.zero_add] at same
    exact tokenize_eq_ok.2 ⟨tokens, same, splits⟩
  refine ⟨⟨?_, ?_⟩, ?_⟩
  · rintro ⟨tokens, split⟩
    obtain ⟨front, _, splits⟩ := tokenize_eq_ok.1 split
    exact splits.exists_cuts
  · rintro ⟨pieces, cuts⟩
    exact ⟨_, given pieces cuts⟩
  · intro pieces cuts
    refine ⟨fun others again => cuts.unique again, given pieces cuts, ?_⟩
    intro piece _
    exact ⟨fun _ => wordKind_eq_keyword, wordKind_eq_identifier⟩

/-- A fraction ends at a second point, and two quotes between quotes stand for one. -/
theorem tokenize_cuts_touching :
    tokenize "1.5.2<>=''''" = .ok [
      ⟨.literal, "1.5", ⟨0, 3⟩⟩, ⟨.mark, ".", ⟨3, 4⟩⟩, ⟨.literal, "2", ⟨4, 5⟩⟩,
      ⟨.mark, "<>", ⟨5, 7⟩⟩, ⟨.mark, "=", ⟨7, 8⟩⟩, ⟨.literal, "''''", ⟨8, 12⟩⟩, .eof 12] := by
  have decimal : Form.number.Fits ['1', '.', '5'] :=
    ⟨['1'], by simp, by simp, .inr ⟨['5'], by simp, by simp, rfl⟩⟩
  have whole : Form.number.Fits ['2'] := ⟨['2'], by simp, by simp, .inl rfl⟩
  have sign : ∀ sign : Mark, Form.mark.Fits sign.chars := fun sign => ⟨sign, rfl⟩
  have quotes : Form.string.Fits ['\'', '\'', '\'', '\''] := ⟨_, .doubled rfl .nil, rfl⟩
  have text : "1.5.2<>=''''".toList =
      ['1', '.', '5', '.', '2', '<', '>', '=', '\'', '\'', '\'', '\''] := String.toList_ofList
  have cuts : Cuts "1.5.2<>=''''".toList [(.number, ['1', '.', '5']), (.mark, ['.']),
      (.number, ['2']), (.mark, ['<', '>']), (.mark, ['=']),
      (.string, ['\'', '\'', '\'', '\''])] := by
    rw [text]
    refine .cons decimal ⟨by simp, by simp⟩ ?_
    refine .cons (sign .dot) ⟨by decide, by decide⟩ ?_
    refine .cons whole ⟨by simp, by simp⟩ ?_
    refine .cons (sign .lessGreater) ⟨by decide, by decide⟩ ?_
    refine .cons (sign .equal) ⟨by decide, by decide⟩ ?_
    exact .cons quotes (by simp [Form.Stops]) .nil
  exact ((tokenize_cuts _).2 _ cuts).2.1

end SelectSql
