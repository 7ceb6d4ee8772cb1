import SelectSql.Proofs.Lexical.Scanned

/-!
Where one token ends and the next begins. A token is read exactly where its text is admitted and
ends before what follows, so a text can be cut between tokens and extended by what seals its last.
-/

namespace SelectSql

variable {kind : TokenKind} {chars taken left rest : List Char}

/-- A token is read from its text exactly if that is admitted and ends before the rest. -/
theorem readLexeme_append_eq :
    readLexeme (taken ++ rest) = .lexeme kind taken rest ↔
      kind.Admits taken ∧ kind.EndsBefore taken rest := by
  refine ⟨admits_of_readLexeme, ?_⟩
  rintro ⟨admitted, ends⟩
  -- The rules of the lexer are tried in turn, and each category is the outcome of its own.
  cases kind with
  | keyword word =>
    have named : wordKind taken = .keyword word := by rw [wordKind, admitted.2]
    rw [readLexeme_word admitted.1 ends, named]
  | identifier =>
    -- A name is a bare word or stands between delimiters of one of two styles.
    have admitted : IsName (String.ofList taken) := admitted
    rw [IsName, String.toList_ofList] at admitted
    rcases admitted with ⟨word, unknown⟩ | quoted | quoted
    · have named : wordKind taken = .identifier := by rw [wordKind, unknown]
      rw [readLexeme_word word (ends.1 word), named]
    · have opens : QuoteStyle.ofDelimiter? '"' = some .double := rfl
      exact readLexeme_quoted opens quoted nofun
    · have opens : QuoteStyle.ofDelimiter? '\x60' = some .backTick := rfl
      have first : taken.head? = some '\x60' := by
        obtain ⟨body, _, rfl⟩ := quoted
        rfl
      exact readLexeme_quoted opens quoted fun _ => ends.2 first
  | literal =>
    have admitted : IsLiteral (String.ofList taken) := admitted
    rw [IsLiteral, String.toList_ofList] at admitted
    -- A literal is a number or stands between quotes.
    rcases admitted with number | quoted
    · exact readLexeme_number number (ends.1 number).1 (ends.1 number).2
    · have opens : QuoteStyle.ofDelimiter? '\'' = some .single := rfl
      have first : taken.head? = some '\'' := by
        obtain ⟨body, _, rfl⟩ := quoted
        rfl
      exact readLexeme_quoted opens quoted fun _ => ends.2 first
  | mark =>
    obtain ⟨sign, rfl⟩ := admitted
    exact readLexeme_mark sign ends
  | space => exact readLexeme_space admitted.1 admitted.2 ends
  | eof => exact admitted.elim

section Whole

/-- A token that is all of a text ends there. -/
theorem TokenKind.endsBefore_nil : kind.EndsBefore taken [] := by
  cases kind <;> simp [TokenKind.EndsBefore]

/-- A text is a name exactly if the whole of it is read as one. -/
theorem isName_iff {text : String} :
    IsName text ↔ readLexeme text.toList = .lexeme .identifier text.toList [] := by
  -- Nothing comes after the whole text, so the token may end there.
  have whole := @readLexeme_append_eq .identifier text.toList []
  rw [List.append_nil] at whole
  rw [whole, TokenKind.Admits, String.ofList_toList]
  exact ⟨fun named => ⟨named, TokenKind.endsBefore_nil⟩, And.left⟩

instance (text : String) : Decidable (IsName text) :=
  decidable_of_iff _ isName_iff.symm

end Whole

section Sealing

/-- Characters that can make no token before them longer, save one of white space. -/
def Seals (chars : List Char) : Prop :=
  -- Nothing at all may follow as well.
  ∀ char ∈ chars.head?, isBlank char = true ∨ char = ',' ∨ char = ')'

/-- What comes first of two parts comes first of the whole. -/
theorem mem_head?_append {α : Type} {item : α} {first second : List α}
    (member : item ∈ first.head?) : item ∈ (first ++ second).head? := by
  cases first with
  | nil => cases member
  | cons => exact member

/-- A token that ends before a text ends before the front of that text. -/
theorem TokenKind.EndsBefore.truncate (ends : kind.EndsBefore taken (left ++ rest)) :
    kind.EndsBefore taken left := by
  -- The next character, if there is one, is the same.
  cases kind with
  | keyword word => exact fun char first => ends char (mem_head?_append first)
  | identifier =>
    refine ⟨fun word char first => ends.1 word char (mem_head?_append first), ?_⟩
    intro quote first
    exact ends.2 quote (mem_head?_append first)
  | literal =>
    refine ⟨fun number => ⟨fun char first => (ends.1 number).1 char (mem_head?_append first), ?_⟩,
      fun quote first => ends.2 quote (mem_head?_append first)⟩
    rintro noPoint digit others rfl
    exact (ends.1 number).2 noPoint digit (others ++ rest) rfl
  | mark =>
    refine ⟨fun less => ⟨fun first => ?_, fun first => ?_⟩, fun greater first => ?_⟩
    · exact (ends.1 less).1 (mem_head?_append first)
    · exact (ends.1 less).2 (mem_head?_append first)
    · exact ends.2 greater (mem_head?_append first)
  | space => exact fun char first => ends char (mem_head?_append first)
  | eof => trivial

/-- A character that seals is of no class and no mark that could go on with a token. -/
private theorem not_of_seals {char : Char} (seals : isBlank char = true ∨ char = ',' ∨ char = ')') :
    isWordChar char = false ∧ char.isDigit = false ∧
      char ∉ ['.', '=', '>', '\'', '\x60'] := by
  rcases seals with blank | rfl | rfl
  · -- No word has a blank in it, and none of the five marks is one.
    obtain ⟨noWord, noDigit⟩ := not_isWordChar_of_isBlank blank
    refine ⟨noWord, noDigit, ?_⟩
    intro member
    simp only [List.mem_cons, List.not_mem_nil, or_false] at member
    rcases member with rfl | rfl | rfl | rfl | rfl <;> cases blank
  · decide
  · decide

/-- A token that ends before some text ends before more of it, if no digit comes first of what is
added. -/
theorem TokenKind.EndsBefore.append_cons {next : Char} (ends : kind.EndsBefore taken (next :: left))
    (noDigit : ∀ char ∈ rest.head?, char.isDigit = false) :
    kind.EndsBefore taken (next :: left ++ rest) := by
  -- The next character stays the same, and after a point no digit is added.
  cases kind with
  | literal =>
    refine ⟨fun number => ⟨(ends.1 number).1, ?_⟩, ends.2⟩
    intro noPoint digit others same
    obtain ⟨rfl, inner⟩ := List.cons.inj same
    cases left with
    | nil =>
      -- The digit would be the first of what is added, and that is no digit.
      have first : rest.head? = some digit := congrArg List.head? inner
      exact noDigit digit first
    | cons second left =>
      have first := (List.cons.inj inner).1
      exact (ends.1 number).2 noPoint digit left (by rw [← first])
  | _ => exact ends

/-- A token that ends before a text ends before more of it, if what is added seals the text. -/
theorem TokenKind.EndsBefore.append (ends : kind.EndsBefore taken left) (seals : Seals rest)
    (apart : kind = .space → left = [] → ∀ char ∈ rest.head?, isBlank char = false) :
    kind.EndsBefore taken (left ++ rest) := by
  cases left with
  | nil =>
    -- The token was the last, so what seals comes right after it.
    have other : ∀ sign ∈ ['.', '=', '>', '\'', '\x60'], rest.head? ≠ some sign := by
      intro sign member first
      exact (not_of_seals (seals sign first)).2.2 member
    have noWord := fun char first => (not_of_seals (seals char first)).1
    have noDigit := fun char first => (not_of_seals (seals char first)).2.1
    cases kind with
    | keyword word => exact noWord
    | identifier => exact ⟨fun _ => noWord, fun _ => other _ (by decide)⟩
    | literal =>
      -- A number could go on after a point, but no point seals.
      refine ⟨fun _ => ⟨noDigit, ?_⟩, fun _ => other _ (by decide)⟩
      rintro _ digit others rfl
      exact absurd rfl (other '.' (by decide))
    | mark =>
      exact ⟨fun _ => ⟨other _ (by decide), other _ (by decide)⟩, fun _ => other _ (by decide)⟩
    | space => exact apart rfl rfl
    | eof => trivial
  | cons next left =>
    exact ends.append_cons fun char first => (not_of_seals (seals char first)).2.1

/-- A token read from a text is read from what the text begins with, if the token is in it. -/
theorem readLexeme_truncate
    (found : readLexeme (taken ++ (left ++ rest)) = .lexeme kind taken (left ++ rest)) :
    readLexeme (taken ++ left) = .lexeme kind taken left := by
  obtain ⟨admitted, ends⟩ := readLexeme_append_eq.1 found
  -- What is admitted depends on the token alone, so only its end has to be seen again.
  exact readLexeme_append_eq.2 ⟨admitted, ends.truncate⟩

/-- A token read from a text is read from more of it, if what is added seals the text. -/
theorem readLexeme_sealed (found : readLexeme chars = .lexeme kind taken left) (seals : Seals rest)
    (apart : kind = .space → left = [] → ∀ char ∈ rest.head?, isBlank char = false) :
    readLexeme (chars ++ rest) = .lexeme kind taken (left ++ rest) := by
  obtain ⟨admitted, ends⟩ := admits_of_readLexeme found
  rw [← append_of_readLexeme found, List.append_assoc]
  exact readLexeme_append_eq.2 ⟨admitted, ends.append seals apart⟩

end Sealing

end SelectSql
