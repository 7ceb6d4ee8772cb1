import SelectSql.Token.LexemeLaws

/-!
The lexical grammar, stated apart from the scanner. A piece of text that the grammar admits is read
back whole wherever what follows cannot extend it, and every piece that is read is admitted.
-/

namespace SelectSql

/-- The inside of a quoted text: bare characters, escaped ones and doubled delimiters. -/
inductive QuoteStyle.Body (style : QuoteStyle) : List Char → Prop where
  | nil : style.Body []
  | plain {char : Char} {rest : List Char} (other : char ≠ style.delimiter)
      (bare : ¬(style.backslash ∧ char = '\\')) (inside : style.Body rest) :
      style.Body (char :: rest)
  | escape {char : Char} {rest : List Char} (allowed : style.backslash = true)
      (inside : style.Body rest) : style.Body ('\\' :: char :: rest)
  | doubled {rest : List Char} (allowed : style.doubling = true) (inside : style.Body rest) :
      style.Body (style.delimiter :: style.delimiter :: rest)

/-- A text between two delimiters of a style. -/
def QuoteStyle.Quotes (style : QuoteStyle) (chars : List Char) : Prop :=
  -- The body cannot hold the closing delimiter, so the text has one reading.
  ∃ body, style.Body body ∧ chars = style.delimiter :: (body ++ [style.delimiter])

/-- Digits, and after a point further digits if there is one. -/
def IsNumber (chars : List Char) : Prop :=
  -- Neither side of the point may be empty.
  ∃ whole, whole ≠ [] ∧ (∀ char ∈ whole, char.isDigit = true) ∧ (chars = whole ∨
    ∃ fraction, fraction ≠ [] ∧ (∀ char ∈ fraction, char.isDigit = true) ∧
      chars = whole ++ '.' :: fraction)

/-- Word characters of which the first is no digit. -/
def IsWord (chars : List Char) : Prop :=
  -- A text that begins with a digit is read as a number first.
  ∃ first rest, chars = first :: rest ∧ isWordChar first = true ∧ first.isDigit = false ∧
    ∀ char ∈ rest, isWordChar char = true

/-- The text of a name: a word that is no keyword, or a delimited name. -/
def IsName (text : String) : Prop :=
  -- Between delimiters even a keyword is a name.
  (IsWord text.toList ∧ Keyword.ofText? text = none) ∨
    QuoteStyle.double.Quotes text.toList ∨ QuoteStyle.backTick.Quotes text.toList

/-- The text of a literal that is no keyword: a number or a string. -/
def IsLiteral (text : String) : Prop :=
  -- A string keeps its quotes, so no text is both.
  IsNumber text.toList ∨ QuoteStyle.single.Quotes text.toList

section Runs

variable {α : Type} {test : α → Bool} {run rest : List α}

/-- A run of passing items is taken whole where the next item fails. -/
theorem takeWhile_run (inside : ∀ item ∈ run, test item = true)
    (stop : ∀ item ∈ rest.head?, test item = false) : (run ++ rest).takeWhile test = run := by
  -- Nothing is taken of a rest whose first item fails.
  rw [List.takeWhile_append_of_pos inside]
  cases rest with
  | nil => simp
  | cons item rest =>
    have fails := stop item rfl
    simp [fails]

/-- A run of passing items is dropped whole where the next item fails. -/
theorem dropWhile_run (inside : ∀ item ∈ run, test item = true)
    (stop : ∀ item ∈ rest.head?, test item = false) : (run ++ rest).dropWhile test = rest := by
  -- Nothing is dropped of a rest whose first item fails.
  rw [List.dropWhile_append_of_pos inside]
  cases rest with
  | nil => simp
  | cons item rest =>
    have fails := stop item rfl
    simp [fails]

/-- What is left after a run of passing items begins with one that fails. -/
theorem head?_dropWhile_fails (list : List α) :
    ∀ item ∈ (list.dropWhile test).head?, test item = false := by
  -- Dropping stops at the first item that fails.
  intro item first
  have stopped := List.head?_dropWhile_not test list
  rw [Option.mem_def.1 first] at stopped
  simpa using stopped

end Runs

namespace QuoteStyle

variable {style : QuoteStyle}

/-- A body is closed by the delimiter after it, unless that is doubled. -/
theorem close?_body {body after : List Char} (inside : style.Body body)
    (quote : style.delimiter ≠ '\\')
    (single : style.doubling = true → after.head? ≠ some style.delimiter) :
    style.close? (body ++ style.delimiter :: after) =
      some (body ++ [style.delimiter], after) := by
  -- The search takes the body in the units that the grammar builds it from.
  induction inside with
  | nil =>
    cases after with
    | nil => simp [close?]
    | cons next after =>
      have alone : ¬((style.backslash = true ∧ style.delimiter = '\\') ∨
          (style.doubling = true ∧ style.delimiter = style.delimiter ∧
            next = style.delimiter)) := by
        rintro (⟨_, same⟩ | ⟨doubling, _, same⟩)
        · exact quote same
        · exact single doubling (by simp [same])
      rw [List.nil_append, close?, if_neg alone, if_pos rfl, List.nil_append]
  | @plain char rest other bare _ ih =>
    cases found : rest ++ style.delimiter :: after with
    | nil => simp at found
    | cons next others =>
      -- A bare character is neither an escape nor half of a doubled delimiter.
      have alone : ¬((style.backslash = true ∧ char = '\\') ∨
          (style.doubling = true ∧ char = style.delimiter ∧ next = style.delimiter)) := by
        rintro (escaped | ⟨_, same, _⟩)
        · exact bare escaped
        · exact other same
      rw [found] at ih
      rw [List.cons_append, found, close?, if_neg alone, if_neg other, ih]
      rfl
  | escape allowed _ ih => simp [close?, allowed, ih]
  | doubled allowed _ ih => simp [close?, allowed, ih]

/-- What was closed is a body and its delimiter, and no delimiter follows that would double it. -/
theorem body_of_close? {chars taken after : List Char}
    (closed : style.close? chars = some (taken, after)) :
    (∃ body, style.Body body ∧ taken = body ++ [style.delimiter]) ∧
      (style.doubling = true → after.head? ≠ some style.delimiter) := by
  -- Each step of the search adds one unit of the grammar.
  fun_induction QuoteStyle.close? style chars generalizing taken after with
  | case1 => simp at closed
  | case2 =>
    simp only [Option.some.injEq, Prod.mk.injEq] at closed
    obtain ⟨rfl, rfl⟩ := closed
    exact ⟨⟨[], .nil, by simp⟩, by simp⟩
  | case3 => simp at closed
  | case4 char next rest pair ih =>
    obtain ⟨⟨inner, left⟩, split, same⟩ := Option.map_eq_some_iff.1 closed
    simp only [Prod.mk.injEq] at same
    obtain ⟨rfl, rfl⟩ := same
    obtain ⟨⟨body, inside, rfl⟩, alone⟩ := ih split
    refine ⟨⟨char :: next :: body, ?_, by simp⟩, alone⟩
    rcases pair with ⟨allowed, rfl⟩ | ⟨allowed, rfl, rfl⟩
    · exact .escape allowed inside
    · exact .doubled allowed inside
  | case5 next rest unpaired =>
    -- The closing delimiter stands alone, or the two would have been taken together.
    simp only [Option.some.injEq, Prod.mk.injEq] at closed
    obtain ⟨rfl, rfl⟩ := closed
    refine ⟨⟨[], .nil, by simp⟩, ?_⟩
    intro doubling same
    apply unpaired
    right
    exact ⟨doubling, rfl, by simpa using same⟩
  | case6 char next rest unpaired other ih =>
    obtain ⟨⟨inner, left⟩, split, same⟩ := Option.map_eq_some_iff.1 closed
    simp only [Prod.mk.injEq] at same
    obtain ⟨rfl, rfl⟩ := same
    obtain ⟨⟨body, inside, rfl⟩, alone⟩ := ih split
    refine ⟨⟨char :: body, .plain other ?_ inside, by simp⟩, alone⟩
    intro escaped
    exact unpaired (Or.inl escaped)

end QuoteStyle

/-- A text that begins with a character between quotes has no mark in front. -/
private theorem leading?_of_quote {char : Char} {style : QuoteStyle}
    (opens : QuoteStyle.ofDelimiter? char = some style) (rest : List Char) :
    char = style.delimiter ∧ Mark.leading? (char :: rest) = none ∧
      char.isDigit = false ∧ isWordChar char = false ∧ isBlank char = false := by
  -- Each of the three delimiters is checked against all marks and classes.
  have member := List.mem_of_find?_eq_some opens
  have same := List.find?_some opens
  simp only [beq_iff_eq] at same
  subst same
  simp only [List.mem_cons, List.not_mem_nil, or_false] at member
  rcases member with rfl | rfl | rfl
  · exact ⟨rfl, rfl, by decide, by decide, by decide⟩
  · exact ⟨rfl, rfl, by decide, by decide, by decide⟩
  · exact ⟨rfl, rfl, by decide, by decide, by decide⟩

/-- The texts that a category of token may have. -/
def TokenKind.Admits (chars : List Char) : TokenKind → Prop
  -- The end of input is read from no text at all.
  | .keyword word => IsWord chars ∧ Keyword.ofText? (String.ofList chars) = some word
  | .identifier => IsName (String.ofList chars)
  | .literal => IsLiteral (String.ofList chars)
  | .mark => ∃ sign : Mark, chars = sign.chars
  | .space => chars ≠ [] ∧ ∀ char ∈ chars, isBlank char = true
  | .eof => False

/-- Whether a token of a category, read from some characters, ends where others come next. -/
def TokenKind.EndsBefore (taken rest : List Char) : TokenKind → Prop
  -- Only what could be made longer, or be joined to what follows, needs a condition.
  | .keyword _ => ∀ char ∈ rest.head?, isWordChar char = false
  | .identifier =>
    (IsWord taken → ∀ char ∈ rest.head?, isWordChar char = false) ∧
      (taken.head? = some '\x60' → rest.head? ≠ some '\x60')
  | .literal =>
    (IsNumber taken → (∀ char ∈ rest.head?, char.isDigit = false) ∧
      ('.' ∉ taken → ∀ digit others, rest = '.' :: digit :: others → digit.isDigit = false)) ∧
      (taken.head? = some '\'' → rest.head? ≠ some '\'')
  | .mark =>
    (taken = ['<'] → rest.head? ≠ some '=' ∧ rest.head? ≠ some '>') ∧
      (taken = ['>'] → rest.head? ≠ some '=')
  | .space => ∀ char ∈ rest.head?, isBlank char = false
  | .eof => True

/-- White space is neither a word character nor a digit. -/
theorem not_isWordChar_of_isBlank {char : Char} (blank : isBlank char = true) :
    isWordChar char = false ∧ char.isDigit = false := by
  -- The code points of white space avoid those of ASCII letters, digits and the underscore.
  obtain ⟨range, member, low, high⟩ := inRanges_iff.1 blank
  have code : char.toNat ≠ 95 → char ≠ '_' := fun other same => other (by rw [same]; rfl)
  unfold isWordChar Char.isAlphanum Char.isAlpha Char.isUpper Char.isLower Char.isDigit
  simp only [Bool.or_eq_false_iff, Bool.and_eq_false_iff, decide_eq_false_iff_not,
    beq_eq_false_iff_ne, ge_iff_le, UInt32.le_iff_toNat_le, Char.reduceVal, UInt32.reduceToNat]
  change _ ≤ char.val.toNat at low
  change char.val.toNat ≤ _ at high
  change char.val.toNat ≠ 95 → _ at code
  simp only [blankRanges, List.mem_cons, List.not_mem_nil, or_false] at member
  rcases member with rfl | rfl | rfl | rfl | rfl | rfl | rfl | rfl | rfl | rfl <;>
    simp only at low high <;>
    exact ⟨⟨⟨by omega, by omega⟩, code (by omega)⟩, by omega⟩

/-- A number is split off whole where no digit follows, and no fraction if it has none. -/
private theorem splitNumber_number {number rest : List Char} (admitted : IsNumber number)
    (stop : ∀ char ∈ rest.head?, char.isDigit = false)
    (point : '.' ∉ number →
      ∀ digit others, rest = '.' :: digit :: others → digit.isDigit = false) :
    splitNumber (number ++ rest) = (number, rest) := by
  -- The digits end at the point or at the end of the number.
  obtain ⟨whole, _, digits, rfl | ⟨fraction, nonempty, fractionDigits, rfl⟩⟩ := admitted
  · simp only [splitNumber, takeWhile_run digits stop, dropWhile_run digits stop]
    have noPoint : '.' ∉ number := by
      intro member
      cases digits '.' member
    split
    · rename_i digit others
      rw [if_neg (by simp [point noPoint digit others rfl])]
    · rfl
  · obtain ⟨digit, others, rfl⟩ := List.exists_cons_of_ne_nil nonempty
    have pointed : ∀ char ∈ ('.' :: digit :: (others ++ rest)).head?, char.isDigit = false := by
      intro char first
      simp only [List.head?_cons, Option.mem_def, Option.some.injEq] at first
      subst first
      decide
    have leading : digit.isDigit = true := fractionDigits digit (by simp)
    have inner : ∀ char ∈ others, char.isDigit = true := fun char member =>
      fractionDigits char (by simp [member])
    simp only [splitNumber, List.append_assoc, List.cons_append,
      takeWhile_run digits pointed, dropWhile_run digits pointed]
    rw [if_pos leading, takeWhile_run inner stop, dropWhile_run inner stop]

/-- A number is read whole where no digit follows, and no fraction if it has none. -/
theorem readLexeme_number {number rest : List Char} (admitted : IsNumber number)
    (stop : ∀ char ∈ rest.head?, char.isDigit = false)
    (point : '.' ∉ number →
      ∀ digit others, rest = '.' :: digit :: others → digit.isDigit = false) :
    readLexeme (number ++ rest) = .lexeme .literal number rest := by
  have split := splitNumber_number admitted stop point
  obtain ⟨whole, nonempty, digits, shape⟩ := admitted
  obtain ⟨digit, others, rfl⟩ := List.exists_cons_of_ne_nil nonempty
  have leading : digit.isDigit = true := digits digit (by simp)
  have begins : ∃ tail, number = digit :: tail := by
    rcases shape with rfl | ⟨fraction, _, _, rfl⟩
    · exact ⟨others, rfl⟩
    · exact ⟨others ++ '.' :: fraction, rfl⟩
  obtain ⟨tail, rfl⟩ := begins
  rw [List.cons_append] at split ⊢
  simp only [readLexeme, leading, if_true, split]

/-- A word is read whole where no word character follows. -/
theorem readLexeme_word {word rest : List Char} (admitted : IsWord word)
    (stop : ∀ char ∈ rest.head?, isWordChar char = false) :
    readLexeme (word ++ rest) = .lexeme (wordKind word) word rest := by
  obtain ⟨first, others, rfl, starts, noDigit, inside⟩ := admitted
  -- The first character rules out a number, and the run ends where the word does.
  have all : ∀ char ∈ first :: others, isWordChar char = true :=
    List.forall_mem_cons.2 ⟨starts, inside⟩
  have taken := takeWhile_run all stop
  have dropped := dropWhile_run all stop
  rw [List.cons_append] at taken dropped ⊢
  simp only [readLexeme, noDigit, starts, taken, dropped, Bool.false_eq_true, if_false, if_true]

/-- White space is read whole where no further white space follows. -/
theorem readLexeme_space {blanks rest : List Char} (nonempty : blanks ≠ [])
    (inside : ∀ char ∈ blanks, isBlank char = true)
    (stop : ∀ char ∈ rest.head?, isBlank char = false) :
    readLexeme (blanks ++ rest) = .lexeme .space blanks rest := by
  obtain ⟨first, others, rfl⟩ := List.exists_cons_of_ne_nil nonempty
  -- A blank is neither a digit nor a word character, whatever the alphabet.
  have blank : isBlank first = true := inside first (by simp)
  obtain ⟨noWord, noDigit⟩ := not_isWordChar_of_isBlank blank
  have taken := takeWhile_run inside stop
  have dropped := dropWhile_run inside stop
  rw [List.cons_append] at taken dropped ⊢
  simp only [readLexeme, noDigit, noWord, blank, taken, dropped, Bool.false_eq_true, if_false,
    if_true]

/-- A quoted text is read whole where its delimiter does not follow, if that could be doubled. -/
theorem readLexeme_quoted {char : Char} {style : QuoteStyle} {quoted rest : List Char}
    (opens : QuoteStyle.ofDelimiter? char = some style) (admitted : style.Quotes quoted)
    (stop : style.doubling = true → rest.head? ≠ some style.delimiter) :
    readLexeme (quoted ++ rest) = .lexeme style.kind quoted rest := by
  obtain ⟨body, inside, rfl⟩ := admitted
  -- The delimiter alone selects the style, and the body closes where it should.
  obtain ⟨rfl, noMark, noDigit, noWord, noBlank⟩ :=
    leading?_of_quote opens (body ++ style.delimiter :: rest)
  have quote : style.delimiter ≠ '\\' := by
    intro same
    rw [same] at opens
    cases opens
  have closed := QuoteStyle.close?_body inside quote stop
  have whole : style.delimiter :: (body ++ [style.delimiter]) ++ rest =
      style.delimiter :: (body ++ style.delimiter :: rest) := by simp
  rw [whole]
  simp only [readLexeme, noDigit, noWord, noBlank, noMark, opens, closed, Bool.false_eq_true,
    if_false]

/-- A quote that is never closed is met as such. -/
theorem readLexeme_unclosed {char : Char} {style : QuoteStyle} {rest : List Char}
    (opens : QuoteStyle.ofDelimiter? char = some style) (unclosed : style.close? rest = none) :
    readLexeme (char :: rest) = .unclosed char := by
  -- Nothing but a quoted text begins with the delimiter.
  obtain ⟨_, noMark, noDigit, noWord, noBlank⟩ := leading?_of_quote opens rest
  simp only [readLexeme, noDigit, noWord, noBlank, noMark, opens, unclosed, Bool.false_eq_true,
    if_false]

/-- A mark leads where it is not the beginning of a longer one. -/
private theorem leading?_chars_iff (sign : Mark) (rest : List Char) :
    Mark.leading? (sign.chars ++ rest) = some sign ↔
      TokenKind.mark.EndsBefore sign.chars rest := by
  -- Only the two angle signs begin longer marks, and these go on with one of two characters.
  cases rest with
  | nil =>
    cases sign <;>
      simp [TokenKind.EndsBefore, Mark.leading?, Mark.all, Mark.chars, List.isPrefixOf, List.find?]
  | cons char rest =>
    by_cases equal : char = '='
    · subst equal
      cases sign <;>
        simp [TokenKind.EndsBefore, Mark.leading?, Mark.all, Mark.chars, List.isPrefixOf,
          List.find?]
    by_cases greater : char = '>'
    · subst greater
      cases sign <;>
        simp [TokenKind.EndsBefore, Mark.leading?, Mark.all, Mark.chars, List.isPrefixOf,
          List.find?]
    have noEqual : ('=' == char) = false := beq_false_of_ne (Ne.symm equal)
    have noGreater : ('>' == char) = false := beq_false_of_ne (Ne.symm greater)
    cases sign <;>
      simp [TokenKind.EndsBefore, Mark.leading?, Mark.all, Mark.chars, List.isPrefixOf,
        List.find?, noEqual, noGreater, equal, greater]

/-- A mark is read whole where it is not the beginning of a longer one. -/
theorem readLexeme_mark (sign : Mark) {rest : List Char}
    (stop : TokenKind.mark.EndsBefore sign.chars rest) :
    readLexeme (sign.chars ++ rest) = .lexeme .mark sign.chars rest := by
  have leading := (leading?_chars_iff sign rest).2 stop
  have dropped : (sign.chars ++ rest).drop sign.chars.length = rest := by simp
  -- No mark begins with a digit, a word character or a blank.
  obtain ⟨first, others, begins⟩ := List.exists_cons_of_ne_nil sign.chars_ne_nil
  have classes : first.isDigit = false ∧ isWordChar first = false ∧ isBlank first = false := by
    cases sign <;> cases begins <;> exact ⟨by decide, by decide, by decide⟩
  obtain ⟨noDigit, noWord, noBlank⟩ := classes
  rw [begins, List.cons_append] at leading dropped ⊢
  simp only [readLexeme, noDigit, noWord, noBlank, leading, Bool.false_eq_true, if_false, begins,
    dropped]

/-- What is split off a text that begins with a digit is a number. -/
private theorem isNumber_splitNumber {char : Char} (rest : List Char)
    (digit : char.isDigit = true) : IsNumber (splitNumber (char :: rest)).1 := by
  -- The leading digits include the first character, and a fraction has a digit of its own.
  have whole : (char :: rest).takeWhile Char.isDigit ≠ [] := by
    simp [List.takeWhile_cons_of_pos digit]
  have digits : ∀ list : List Char, ∀ char ∈ list.takeWhile Char.isDigit, char.isDigit = true :=
    fun list => List.all_eq_true.1 List.all_takeWhile
  refine ⟨(char :: rest).takeWhile Char.isDigit, whole, digits _, ?_⟩
  unfold splitNumber
  split
  · rename_i next others _
    split
    · rename_i leading
      right
      exact ⟨next :: others.takeWhile Char.isDigit, by simp,
        List.forall_mem_cons.2 ⟨leading, digits _⟩, rfl⟩
    · left
      rfl
  · left
    rfl

/-- Where a number was split off no digit follows, and no fraction if it has none. -/
private theorem splitNumber_ends (chars : List Char) :
    (∀ char ∈ (splitNumber chars).2.head?, char.isDigit = false) ∧
      ('.' ∉ (splitNumber chars).1 → ∀ digit others,
        (splitNumber chars).2 = '.' :: digit :: others → digit.isDigit = false) := by
  -- The fraction is left out only if no digit begins it.
  have stops := @head?_dropWhile_fails _ Char.isDigit
  unfold splitNumber
  split
  · rename_i next others found
    split
    · refine ⟨stops _, ?_⟩
      intro noPoint
      simp at noPoint
    · rename_i noDigit
      refine ⟨?_, ?_⟩
      · intro char first
        obtain rfl := Option.some.inj first
        decide
      · intro _ digit _ same
        obtain ⟨rfl, _⟩ := List.cons.inj (List.cons.inj same).2
        simpa using noDigit
  · rename_i other
    refine ⟨stops _, ?_⟩
    intro _ digit others same
    exact absurd same (other digit others)

/-- Whatever is read is admitted, and ends before what is left. -/
theorem admits_of_readLexeme {chars taken rest : List Char} {kind : TokenKind}
    (found : readLexeme chars = .lexeme kind taken rest) :
    kind.Admits taken ∧ kind.EndsBefore taken rest := by
  have whole := append_of_readLexeme found
  -- The first character decides the category, as it does in the grammar.
  unfold readLexeme at found
  split at found
  · simp at found
  rename_i char others
  simp only at found
  split at found
  · rename_i digit
    simp only [Reading.lexeme.injEq] at found
    obtain ⟨rfl, rfl, rfl⟩ := found
    have number := isNumber_splitNumber others digit
    refine ⟨by simpa [TokenKind.Admits, IsLiteral] using Or.inl number, ?_, ?_⟩
    · exact fun _ => splitNumber_ends (char :: others)
    · -- A number does not begin with a quote.
      intro quote
      obtain ⟨next, inner, shape⟩ := List.exists_cons_of_ne_nil (splitNumber_ne_nil digit)
      rw [shape, List.cons_append] at whole
      rw [shape, (List.cons.inj whole).1] at quote
      obtain rfl := Option.some.inj quote
      cases digit
  rename_i noDigit
  split at found
  · rename_i starts
    simp only [Reading.lexeme.injEq] at found
    obtain ⟨rfl, rfl, rfl⟩ := found
    have word : IsWord ((char :: others).takeWhile isWordChar) := by
      refine ⟨char, others.takeWhile isWordChar, List.takeWhile_cons_of_pos starts, starts,
        by simpa using noDigit, List.all_eq_true.1 List.all_takeWhile⟩
    have stops := @head?_dropWhile_fails _ isWordChar (char :: others)
    -- A word is a keyword or a name, and no quote begins it.
    unfold wordKind
    split
    · rename_i keyword spelled
      exact ⟨⟨word, spelled⟩, stops⟩
    · rename_i unknown
      refine ⟨Or.inl ⟨by simpa using word, unknown⟩, fun _ => stops, ?_⟩
      intro quote
      rw [List.takeWhile_cons_of_pos starts] at quote
      obtain rfl := Option.some.inj quote
      cases starts
  split at found
  · rename_i blank
    simp only [Reading.lexeme.injEq] at found
    obtain ⟨rfl, rfl, rfl⟩ := found
    exact ⟨⟨by simp [List.takeWhile_cons_of_pos blank], List.all_eq_true.1 List.all_takeWhile⟩,
      head?_dropWhile_fails _⟩
  split at found
  · rename_i sign leading
    simp only [Reading.lexeme.injEq] at found
    obtain ⟨rfl, rfl, rfl⟩ := found
    rw [← whole] at leading
    exact ⟨⟨sign, rfl⟩, (leading?_chars_iff sign _).1 leading⟩
  split at found
  · simp at found
  rename_i style opens
  split at found
  · rename_i body after closed
    simp only [Reading.lexeme.injEq] at found
    obtain ⟨rfl, rfl, rfl⟩ := found
    obtain ⟨⟨inner, inside, rfl⟩, alone⟩ := QuoteStyle.body_of_close? closed
    -- Each of the three styles has a category of its own.
    have member := List.mem_of_find?_eq_some opens
    have same := List.find?_some opens
    simp only [beq_iff_eq] at same
    subst same
    have quotes : style.Quotes (style.delimiter :: (inner ++ [style.delimiter])) :=
      ⟨inner, inside, rfl⟩
    simp only [List.mem_cons, List.not_mem_nil, or_false] at member
    rcases member with rfl | rfl | rfl
    · refine ⟨Or.inr (by simpa using quotes), ?_, fun _ => alone rfl⟩
      -- A quote begins no number.
      rintro ⟨whole, nonempty, digits, shape⟩
      obtain ⟨digit, rest, rfl⟩ := List.exists_cons_of_ne_nil nonempty
      have leading := digits digit (by simp)
      have first : QuoteStyle.single.delimiter = digit := by
        rcases shape with shape | ⟨_, _, _, shape⟩
        · exact (List.cons.inj shape).1
        · exact (List.cons.inj shape).1
      subst first
      cases leading
    · refine ⟨Or.inr (Or.inl (by simpa using quotes)), ?_, by simp [QuoteStyle.double]⟩
      rintro ⟨first, rest, shape, starts, _⟩
      cases shape
      cases starts
    · refine ⟨Or.inr (Or.inr (by simpa using quotes)), ?_, fun _ => alone rfl⟩
      rintro ⟨first, rest, shape, starts, _⟩
      cases shape
      cases starts
  · simp at found

/-- Words are compared letter by letter. -/
theorem Keyword.ofText?_eq (word : String) : Keyword.ofText? word =
    Keyword.all.find? fun keyword =>
      keyword.text.toList.map Char.toLower == word.toList.map Char.toLower := by
  -- Texts are equal if their characters are, and lowering a text lowers each of them.
  have lowered : ∀ text : String, text.toLower.toList = text.toList.map Char.toLower := by
    intro text
    exact String.toList_map
  unfold Keyword.ofText?
  congr 1
  funext keyword
  rw [Bool.eq_iff_iff, sameLetters, beq_iff_eq, beq_iff_eq, ← String.toList_inj, lowered, lowered]

/-- Keywords are told apart by their spellings. -/
theorem Keyword.text_injective : Function.Injective Keyword.text := by
  -- A look-up among all spellings undoes the spelling.
  have undone : ∀ word : Keyword,
      Keyword.all.find? (fun other => other.text == word.text) = some word := by
    intro word
    cases word <;> decide
  intro word other same
  have found := undone word
  rw [same, undone other] at found
  exact (Option.some.inj found).symm

/-- A keyword is found by its spelling in any mix of cases, and by nothing else. -/
theorem Keyword.ofText?_eq_some {text : String} {word : Keyword} :
    Keyword.ofText? text = some word ↔ text.toLower = word.text := by
  -- Spellings are in lower case already, and no two keywords share one.
  have lower : ∀ word : Keyword, word.text.toLower = word.text := by
    intro word
    have lowered : word.text.toLower.toList = word.text.toList.map Char.toLower :=
      String.toList_map
    rw [← String.toList_inj, lowered]
    cases word <;> decide
  have same : ∀ word : Keyword, sameLetters word.text text = true ↔ text.toLower = word.text := by
    intro word
    rw [sameLetters, beq_iff_eq, lower, eq_comm]
  constructor
  · intro found
    have hit := List.find?_some found
    exact (same word).1 hit
  · intro spelled
    cases found : Keyword.ofText? text with
    | none =>
      have missed := List.find?_eq_none.1 found word word.mem_all
      exact absurd ((same word).2 spelled) missed
    | some other =>
      have hit := List.find?_some found
      rw [Keyword.text_injective (((same other).1 hit).symm.trans spelled)]

/-- The printed spelling of a keyword is a word that spells it. -/
theorem Keyword.admits_capitals (word : Keyword) :
    (TokenKind.keyword word).Admits word.capitals.toList := by
  -- Each keyword is looked up in the list of all.
  have spelled : Keyword.ofText? (String.ofList word.capitals.toList) = some word := by
    rw [Keyword.ofText?_eq, String.toList_ofList, Keyword.capitals, String.toUpper,
      String.toList_map]
    cases word <;> decide +kernel
  have shape : IsWord word.capitals.toList := by
    rw [Keyword.capitals, String.toUpper, String.toList_map]
    cases word <;> exact ⟨_, _, rfl, rfl, rfl, List.all_eq_true.1 rfl⟩
  exact ⟨shape, spelled⟩

end SelectSql
