import SelectSql.Proofs.Lexical.Boundary

/-!
Texts that split without a fault, wherever they stand. Two such texts split side by side as they do
apart, if the second seals the first, and white space that meets white space is one lexeme with it.
-/

namespace SelectSql

/-- The lexeme of a token of a category that was read from some characters. -/
def TokenKind.lexeme (taken : List Char) (kind : TokenKind) : Lexeme :=
  -- A lexeme does not know its place, so any span will do.
  (⟨kind, kind.textOf taken, ⟨0, 0⟩⟩ : Token).lexeme

/-- Only white space is read as such. -/
theorem TokenKind.lexeme_eq_space {taken : List Char} {kind : TokenKind}
    (admitted : kind.Admits taken) : kind.lexeme taken = .space ↔ kind = .space :=
  (Token.lexeme_of_admits ⟨0, 0⟩ admitted).2.2.1

/-- The lexemes that characters begin with, and the characters after these. -/
inductive Scans : List Char → List Lexeme → List Char → Prop where
  | done {chars : List Char} : Scans chars [] chars
  | token {chars taken rest left : List Char} {kind : TokenKind} {lexemes : List Lexeme}
      (found : readLexeme chars = .lexeme kind taken rest) (scans : Scans rest lexemes left) :
      Scans chars (kind.lexeme taken :: lexemes) left

variable {lexemes others : List Lexeme} {kind : TokenKind}
  {chars taken front left rest : List Char}

section Reading

variable {token : Token} {after : Lexer} {position : Nat}

/-- Only the empty text is finished. -/
theorem readLexeme_eq_finished : readLexeme chars = .finished ↔ chars = [] := by
  constructor
  · intro found
    unfold readLexeme at found
    split at found
    · rfl
    · -- Each of the other outcomes is of another kind.
      repeat' split at found
      all_goals cases found
  · rintro rfl
    rfl

/-- The next token is the end of input where nothing is left, and else what is read off the text. -/
theorem Lexer.next_eq_ok :
    (⟨chars, position, []⟩ : Lexer).next = (.ok token, after) ↔
      (chars = [] ∧ token = .eof position ∧ after = ⟨[], position, []⟩) ∨
        ∃ kind taken rest, readLexeme chars = .lexeme kind taken rest ∧
          token = ⟨kind, kind.textOf taken, ⟨position, position + byteLength taken⟩⟩ ∧
          after = ⟨rest, position + byteLength taken, []⟩ := by
  -- No token was put back, so the next one is read off the text.
  rw [Lexer.next_eq_scan rfl, Lexer.scan]
  cases found : readLexeme chars with
  | finished =>
    have empty := readLexeme_eq_finished.1 found
    simp [empty, eq_comm]
  | lexeme kind taken rest =>
    have some : chars ≠ [] := by
      rintro rfl
      cases found
    simp only [some, false_and, false_or, Prod.mk.injEq, Except.ok.injEq]
    constructor
    · rintro ⟨rfl, rfl⟩
      exact ⟨kind, taken, rest, rfl, rfl, rfl⟩
    · rintro ⟨_, _, _, same, rfl, rfl⟩
      cases same
      exact ⟨rfl, rfl⟩
  -- Both faults need a character, and give no token.
  | unclosed delimiter =>
    have some : chars ≠ [] := by
      rintro rfl
      cases found
    simp [some]
  | unknown =>
    have some : chars ≠ [] := by
      rintro rfl
      cases found
    simp [some]

/-- A text shows lexemes without a fault exactly if it splits into them. -/
theorem shows_iff_scans :
    (⟨chars, position, []⟩ : Lexer).Shows lexemes none ↔ Scans chars lexemes [] := by
  constructor
  · intro shown
    -- Each token shown is one read off the text, so the lexer stays without tokens put back.
    generalize begins : (⟨chars, position, []⟩ : Lexer) = lexer at shown
    generalize clean : (Option.none : Option LexError) = fault at shown
    induction shown generalizing chars position with
    | ended taken ending =>
      subst begins
      rcases Lexer.next_eq_ok.1 taken with ⟨rfl, _⟩ | ⟨kind, taken, rest, found, rfl, _⟩
      · exact .done
      · rw [(Token.lexeme_of_admits _ (admits_of_readLexeme found).1).1] at ending
        cases ending
    | failed => cases clean
    | token taken real _ ih =>
      subst begins
      rcases Lexer.next_eq_ok.1 taken with ⟨_, rfl, _⟩ | ⟨kind, taken, rest, found, rfl, rfl⟩
      · cases real
      · exact .token found (ih rfl clean)
  · intro scans
    -- The offset of a token follows from those before it, so any offset will do to begin with.
    generalize ends : ([] : List Char) = left at scans
    induction scans generalizing position with
    | done =>
      subst ends
      exact .ended (Lexer.next_eq_ok.2 (Or.inl ⟨rfl, rfl, rfl⟩)) rfl
    | @token chars taken rest left kind lexemes found _ ih =>
      have shown := @ih (position + byteLength taken) ends
      exact .of_readLexeme found rfl ⟨position, position + byteLength taken⟩ rfl rfl shown

end Reading

namespace Scans

/-- What is read is the front of the text, and it splits in the same way by itself. -/
theorem exists_front (scans : Scans chars lexemes left) :
    ∃ front, chars = front ++ left ∧ Scans front lexemes [] := by
  induction scans with
  | done => exact ⟨[], rfl, .done⟩
  | token found _ ih =>
    obtain ⟨front, rfl, alone⟩ := ih
    -- The token still ends where it did, with less of the text after it.
    have whole := append_of_readLexeme found
    rw [← whole] at found
    exact ⟨_, by rw [← whole, List.append_assoc], .token (readLexeme_truncate found) alone⟩

/-- A token is read before a text if it ends there. -/
theorem cons (admitted : kind.Admits taken) (ends : kind.EndsBefore taken rest)
    (scans : Scans rest lexemes left) :
    Scans (taken ++ rest) (kind.lexeme taken :: lexemes) left :=
  .token (readLexeme_append_eq.2 ⟨admitted, ends⟩) scans

/-- White space is read where a blank comes first, and only there. -/
theorem head?_eq_space (scans : Scans chars lexemes []) :
    lexemes.head? = some .space ↔ ∃ char ∈ chars.head?, isBlank char = true := by
  cases scans with
  | done => simp
  | @token _ taken rest _ kind lexemes found _ =>
    obtain ⟨admitted, _⟩ := admits_of_readLexeme found
    rw [List.head?_cons, Option.some.injEq, TokenKind.lexeme_eq_space admitted]
    constructor
    · rintro rfl
      -- The first of the blanks is the first of the text.
      obtain ⟨first, others, shape⟩ := List.exists_cons_of_ne_nil admitted.1
      refine ⟨first, ?_, admitted.2 first (by simp [shape])⟩
      rw [← append_of_readLexeme found, shape]
      rfl
    · rintro ⟨char, first, blank⟩
      -- A blank is neither a digit nor in a word, so it is read by the rule for white space.
      obtain ⟨others, rfl⟩ := List.head?_eq_some_iff.1 first
      obtain ⟨noWord, noDigit⟩ := not_isWordChar_of_isBlank blank
      simp only [readLexeme, noDigit, noWord, blank, Bool.false_eq_true, if_false, if_true,
        Reading.lexeme.injEq] at found
      exact found.1.symm

/-- No white space is read where no blank comes first. -/
theorem head?_ne_space (scans : Scans chars lexemes [])
    (apart : ∀ char ∈ chars.head?, isBlank char = false) : lexemes.head? ≠ some .space := by
  rw [Ne, scans.head?_eq_space]
  rintro ⟨char, first, blank⟩
  rw [apart char first] at blank
  cases blank

/-- What is read has each run of white space as one lexeme. -/
theorem squeeze_eq (scans : Scans chars lexemes []) : squeeze lexemes = lexemes := by
  generalize ends : ([] : List Char) = left at scans
  induction scans with
  | done => rfl
  | @token chars taken rest left kind lexemes found scans ih =>
    subst ends
    obtain ⟨admitted, stops⟩ := admits_of_readLexeme found
    by_cases blank : kind = .space
    · -- A run of white space is read to its end.
      subst blank
      show squeeze (.space :: lexemes) = .space :: lexemes
      rw [squeeze_space, ih rfl, skip_eq_self (scans.head?_ne_space stops)]
    · rw [squeeze_cons fun same => blank ((TokenKind.lexeme_eq_space admitted).1 same), ih rfl]

/-- White space before a text is one with the white space that the text begins with. -/
theorem blanks (nonempty : taken ≠ []) (inside : ∀ char ∈ taken, isBlank char = true)
    (scans : Scans rest lexemes []) : Scans (taken ++ rest) (squeeze (.space :: lexemes)) [] := by
  rw [squeeze_space, scans.squeeze_eq]
  by_cases first : lexemes.head? = some .space
  · -- The blanks in front join the white space that was read first.
    cases scans with
    | done => cases first
    | @token _ others left _ kind lexemes found scans =>
      obtain ⟨admitted, stops⟩ := admits_of_readLexeme found
      have same := Option.some.inj first
      obtain rfl := (TokenKind.lexeme_eq_space admitted).1 same
      have all : TokenKind.space.Admits (taken ++ others) := by
        refine ⟨by simp [nonempty], ?_⟩
        intro char member
        rcases List.mem_append.1 member with member | member
        · exact inside char member
        · exact admitted.2 char member
      rw [same, skip_space, skip_eq_self (scans.head?_ne_space stops),
        ← append_of_readLexeme found, ← List.append_assoc]
      exact scans.cons all stops
  · -- The blanks end where the text begins, since that does not begin with one.
    have stops : TokenKind.space.EndsBefore taken rest := by
      intro char begins
      rw [← Bool.not_eq_true]
      exact fun blank => first (scans.head?_eq_space.2 ⟨char, begins, blank⟩)
    have all : TokenKind.space.Admits taken := ⟨nonempty, inside⟩
    rw [skip_eq_self first]
    exact scans.cons all stops

/-- Two texts split side by side as they do apart, if the second seals the first. -/
theorem append (first : Scans chars lexemes []) (second : Scans rest others [])
    (seals : Seals rest) : Scans (chars ++ rest) (squeeze (lexemes ++ others)) [] := by
  generalize ends : ([] : List Char) = left at first
  induction first with
  | done =>
    subst ends
    rw [List.nil_append, List.nil_append, second.squeeze_eq]
    exact second
  | @token chars taken after left kind lexemes found _ ih =>
    subst ends
    have following := ih rfl
    obtain ⟨admitted, _⟩ := admits_of_readLexeme found
    by_cases blank : kind = .space
    · -- White space at the end of the first text goes on into the second.
      subst blank
      have whole := following.blanks admitted.1 admitted.2
      rw [squeeze_space, squeeze_squeeze, ← squeeze_space] at whole
      rw [← append_of_readLexeme found, List.append_assoc]
      exact whole
    · rw [List.cons_append,
        squeeze_cons fun same => blank ((TokenKind.lexeme_eq_space admitted).1 same)]
      exact .token (readLexeme_sealed found seals fun same => absurd same blank) following

/-- Two texts split side by side as they do apart, if the last token of the first ends before the
second and no digit begins that. -/
theorem append_of_ends (first : Scans chars lexemes []) (second : Scans rest others [])
    (noDigit : ∀ char ∈ rest.head?, char.isDigit = false)
    (ends : ∀ kind taken, TokenKind.Admits taken kind →
      lexemes.getLast? = some (kind.lexeme taken) → kind.EndsBefore taken rest) :
    Scans (chars ++ rest) (lexemes ++ others) [] := by
  generalize stop : ([] : List Char) = left at first
  induction first with
  | done =>
    subst stop
    exact second
  | @token chars taken after left kind lexemes found scans ih =>
    subst stop
    obtain ⟨admitted, stops⟩ := admits_of_readLexeme found
    have longer : kind.EndsBefore taken (after ++ rest) := by
      cases after with
      | nil =>
        -- Nothing is read off nothing, so this token is the last.
        cases scans with
        | done => exact ends kind taken admitted rfl
        | token found _ => cases found
      | cons next after => exact stops.append_cons noDigit
    rw [← append_of_readLexeme found, List.append_assoc, List.cons_append]
    refine Scans.cons admitted longer (ih ?_ rfl)
    intro last shown fits member
    refine ends last shown fits ?_
    rw [List.getLast?_cons, member]
    rfl

end Scans

end SelectSql
