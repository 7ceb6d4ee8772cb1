import SelectSql.Proofs.Lexical.Grammar
import SelectSql.Token.Lexer

/-!
Where a quoted text ends. At most one delimiter closes it properly, and the lexer stops right after
that one; where there is none, the opening delimiter is at fault.
-/

namespace SelectSql

/-- A quoted text in front of others, closed by a delimiter that is not one half of a doubled
one. -/
structure QuoteStyle.Closes (style : QuoteStyle) (chars quoted rest : List Char) : Prop where
  /-- The quoted text is what the characters begin with. -/
  whole : chars = quoted ++ rest
  /-- It has a delimiter at both ends, and between them only what the style lets stand there. -/
  quotes : style.Quotes quoted
  /-- No second delimiter follows that would double the last one. -/
  alone : style.doubling = true → rest.head? ≠ some style.delimiter

namespace QuoteStyle

variable {style : QuoteStyle} {delimiter : Char} {chars others quoted rest : List Char}

/-- The style that a delimiter opens has that delimiter, and writes no escape with it. -/
theorem delimiter_of_opens (opens : ofDelimiter? delimiter = some style) :
    style.delimiter = delimiter ∧ style.delimiter ≠ '\\' := by
  -- A backslash opens no style.
  have same : style.delimiter = delimiter := by simpa using List.find?_some opens
  refine ⟨same, ?_⟩
  rintro escape
  rw [← same, escape] at opens
  cases opens

/-- Only strings are literals. -/
theorem kind_of_opens (opens : ofDelimiter? delimiter = some style) :
    style.kind = if delimiter = '\'' then .literal else .identifier := by
  -- There are three styles, each of which has its own delimiter.
  have member := List.mem_of_find?_eq_some opens
  obtain ⟨rfl, _⟩ := delimiter_of_opens opens
  simp only [List.mem_cons, List.not_mem_nil, or_false] at member
  rcases member with rfl | rfl | rfl <;> rfl

/-- A quoted text closes properly exactly where the search for its delimiter stops. -/
theorem closes_cons_iff (quote : style.delimiter ≠ '\\') :
    style.Closes (style.delimiter :: others) quoted rest ↔
      ∃ inner, quoted = style.delimiter :: inner ∧ style.close? others = some (inner, rest) := by
  constructor
  · -- The search goes through all of the body and stops at the delimiter after it.
    rintro ⟨whole, ⟨body, inside, rfl⟩, alone⟩
    refine ⟨body ++ [style.delimiter], rfl, ?_⟩
    rw [List.cons_append, List.cons.injEq, List.append_assoc, List.singleton_append] at whole
    rw [whole.2]
    exact close?_body inside quote alone
  · -- What the search has gone through is a body, and no second delimiter follows.
    rintro ⟨inner, rfl, closed⟩
    obtain ⟨⟨body, inside, rfl⟩, alone⟩ := body_of_close? closed
    refine ⟨?_, ⟨body, inside, rfl⟩, alone⟩
    rw [List.cons_append, append_of_close? closed]

/-- A quoted text closes properly in one place at most. -/
theorem Closes.unique {other beyond : List Char} (opens : ofDelimiter? delimiter = some style)
    (begins : chars.head? = some delimiter) (closes : style.Closes chars quoted rest)
    (again : style.Closes chars other beyond) : quoted = other ∧ rest = beyond := by
  -- Both quoted texts begin with the same delimiter.
  obtain ⟨rfl, quote⟩ := delimiter_of_opens opens
  obtain ⟨others, rfl⟩ := List.head?_eq_some_iff.1 begins
  -- The search has one outcome.
  obtain ⟨inner, rfl, closed⟩ := (closes_cons_iff quote).1 closes
  obtain ⟨_, rfl, found⟩ := (closes_cons_iff quote).1 again
  rw [closed, Option.some.injEq, Prod.mk.injEq] at found
  exact ⟨congrArg (_ :: ·) found.1, found.2⟩

/-- A quoted text that closes properly is read up to there. -/
theorem Closes.readLexeme_eq (opens : ofDelimiter? delimiter = some style)
    (closes : style.Closes chars quoted rest) :
    readLexeme chars = .lexeme style.kind quoted rest := by
  rw [closes.whole]
  exact readLexeme_quoted opens closes.quotes closes.alone

/-- A quoted text that closes properly is the next token, as it is written. -/
theorem Closes.scan_eq {lexer : Lexer} (opens : ofDelimiter? delimiter = some style)
    (closes : style.Closes lexer.rest quoted rest) :
    let kind := if delimiter = '\'' then TokenKind.literal else .identifier
    let stop := lexer.position + byteLength quoted
    lexer.scan = (.ok ⟨kind, String.ofList quoted, ⟨lexer.position, stop⟩⟩,
      ⟨rest, stop, lexer.pushed⟩) := by
  have kind := kind_of_opens opens
  -- Neither of the two categories is that of a keyword, so the text is kept as it is written.
  have written : style.kind.textOf quoted = String.ofList quoted := by
    rw [kind]
    split <;> rfl
  simp only [Lexer.scan, closes.readLexeme_eq opens, written]
  rw [kind]

/-- A quoted text that closes nowhere is not read. -/
theorem readLexeme_of_not_closes (opens : ofDelimiter? delimiter = some style)
    (begins : chars.head? = some delimiter)
    (never : ∀ quoted rest, ¬style.Closes chars quoted rest) :
    readLexeme chars = .unclosed delimiter := by
  obtain ⟨rfl, quote⟩ := delimiter_of_opens opens
  obtain ⟨others, rfl⟩ := List.head?_eq_some_iff.1 begins
  apply readLexeme_unclosed opens
  -- A search that stops would give a text that closes properly.
  cases closed : style.close? others with
  | none => rfl
  | some split => exact absurd ((closes_cons_iff quote).2 ⟨_, rfl, closed⟩) (never _ _)

end QuoteStyle

/-- A quoted text is taken in one token up to the only delimiter that closes it properly, and
without such a delimiter the opening one is at fault. -/
theorem scan_delimited {delimiter : Char} {style : QuoteStyle}
    (opens : QuoteStyle.ofDelimiter? delimiter = some style) (lexer : Lexer)
    (begins : lexer.rest.head? = some delimiter) :
    (∀ quoted rest other beyond, style.Closes lexer.rest quoted rest →
      style.Closes lexer.rest other beyond → quoted = other ∧ rest = beyond) ∧
    (∀ quoted rest, style.Closes lexer.rest quoted rest →
      let kind := if delimiter = '\'' then TokenKind.literal else .identifier
      let stop := lexer.position + byteLength quoted
      lexer.scan = (.ok ⟨kind, String.ofList quoted, ⟨lexer.position, stop⟩⟩,
        ⟨rest, stop, lexer.pushed⟩)) ∧
    ((∀ quoted rest, ¬style.Closes lexer.rest quoted rest) ↔
      lexer.scan.1 = .error (.unterminatedQuote lexer.position delimiter)) := by
  -- A text that closes is read as a token, so the fault is left for those that close nowhere.
  refine ⟨fun _ _ _ _ closes again => closes.unique opens begins again,
    fun _ _ closes => closes.scan_eq opens, fun never => ?_, fun failed quoted rest closes => ?_⟩
  · simp only [Lexer.scan, QuoteStyle.readLexeme_of_not_closes opens begins never]
  · rw [closes.scan_eq opens] at failed
    cases failed

/-- An escaped back-tick and a doubled one stand inside a name, which a lone one closes. -/
theorem scan_delimited_escaped :
    (⟨['\x60', '\\', '\x60', '\x60', '\x60', 'é', '\x60', 'c'], 2, []⟩ : Lexer).scan =
      (.ok ⟨.identifier, String.ofList ['\x60', '\\', '\x60', '\x60', '\x60', 'é', '\x60'],
        ⟨2, 10⟩⟩, ⟨['c'], 10, []⟩) := by
  have opens : QuoteStyle.ofDelimiter? '\x60' = some .backTick := rfl
  have plain : QuoteStyle.backTick.Body ['é'] := .plain (by decide) (by decide) .nil
  have inside : QuoteStyle.backTick.Body ['\\', '\x60', '\x60', '\x60', 'é'] :=
    .escape rfl (.doubled rfl plain)
  have closes : QuoteStyle.backTick.Closes
      ['\x60', '\\', '\x60', '\x60', '\x60', 'é', '\x60', 'c']
      ['\x60', '\\', '\x60', '\x60', '\x60', 'é', '\x60'] ['c'] :=
    ⟨rfl, ⟨_, inside, rfl⟩, by decide⟩
  exact (scan_delimited opens ⟨_, 2, []⟩ rfl).2.1 _ _ closes

/-- A backslash takes the delimiter after it into a name, and a string goes on at two quotes. -/
example : readLexeme ['"', 'a', '\\', '"'] = .unclosed '"' ∧
    readLexeme ['\'', 'a', '\\', '\'', '\''] = .unclosed '\'' ∧
    readLexeme ['"', '\\', '\\', '"', '"'] = .lexeme .identifier ['"', '\\', '\\', '"'] ['"'] := by
  decide +kernel

end SelectSql
