import SelectSql.Proofs.Lexical.Grammar
import SelectSql.Token.Lexer
import SelectSql.Syntax.Meaning

/-!
What is left to read, as a list of lexemes. A lexeme is a token without its place, so two texts that
differ in white space or in the case of their keywords may show the same lexemes.
-/

namespace SelectSql

/-- What a token says, apart from where it stands and how its letters are written. -/
inductive Lexeme where
  /-- A keyword or a mark. -/
  | symbol (terminal : Terminal)
  /-- A bare or delimited name. -/
  | name (text : String)
  /-- A number or a string. -/
  | literal (text : String)
  /-- White space. -/
  | space
  /-- The end of input, or a mark that no text can spell. -/
  | foreign
  deriving DecidableEq, Repr

namespace Lexeme

/-- A keyword. -/
abbrev keyword (word : Keyword) : Lexeme := symbol (.keyword word)

/-- A mark. -/
abbrev mark (sign : Mark) : Lexeme := symbol (.mark sign)

/-- The symbol that the lexeme is, if it is one. -/
def terminal? : Lexeme → Option Terminal
  | symbol terminal => some terminal
  | _ => none

/-- The category and the text of a token with this lexeme; the text of white space is left out. -/
def word : Lexeme → TokenKind × String
  -- Keywords have their lower-case spelling, as the scanner gives it.
  | symbol (.keyword word) => (.keyword word, word.text)
  | symbol (.mark sign) => (.mark, sign.text)
  | name text => (.identifier, text)
  | literal text => (.literal, text)
  | space => (.space, "")
  | foreign => (.eof, "")

/-- Whether the lexeme can be read from a text: names and literals must be admitted as such. -/
def Genuine : Lexeme → Prop
  -- Symbols and white space have no text of their own to be wrong.
  | name text => IsName text
  | literal text => IsLiteral text
  | foreign => False
  | _ => True

end Lexeme

/-- The lexeme of a token. -/
def Token.lexeme (token : Token) : Lexeme :=
  -- A keyword is known by its category, so a token made by hand may carry another text.
  match token.kind with
  | .keyword word => .keyword word
  | .mark =>
    match Mark.ofText? token.text with
    | some sign => .mark sign
    | none => .foreign
  | .identifier => .name token.text
  | .literal => .literal token.text
  | .space => .space
  | .eof => .foreign

/-- A mark is found by its own text and by no other. -/
theorem Mark.ofText?_eq_some {text : String} {sign : Mark} :
    Mark.ofText? text = some sign ↔ text = sign.text := by
  constructor
  · intro found
    have same := List.find?_some found
    simpa using (beq_iff_eq.1 same).symm
  · rintro rfl
    -- The texts are distinct, so the search stops at the mark itself.
    cases sign <;> decide

namespace Token

/-- The end of input says nothing. -/
theorem lexeme_of_isEof {token : Token} (ending : token.isEof = true) :
    token.lexeme = .foreign := by
  simp only [isEof, beq_iff_eq] at ending
  simp [lexeme, ending]

/-- A token with the lexeme of a keyword is that keyword. -/
theorem kind_of_keyword {token : Token} {word : Keyword} (shown : token.lexeme = .keyword word) :
    token.kind = .keyword word := by
  unfold lexeme at shown
  cases kind : token.kind with
  | keyword other =>
    simp only [kind, Lexeme.symbol.injEq, Terminal.keyword.injEq] at shown
    rw [shown]
  | mark =>
    simp only [kind] at shown
    cases found : Mark.ofText? token.text <;> simp [found] at shown
  | _ => simp [kind] at shown

/-- A token with the lexeme of a mark is a mark. -/
theorem kind_of_mark {token : Token} {sign : Mark} (shown : token.lexeme = .mark sign) :
    token.kind = .mark := by
  unfold lexeme at shown
  cases kind : token.kind with
  | mark => rfl
  | _ => simp [kind] at shown

/-- A token with the lexeme of a name is a name with its text. -/
theorem kind_of_name {token : Token} {text : String} (shown : token.lexeme = .name text) :
    token.kind = .identifier ∧ token.text = text := by
  unfold lexeme at shown
  cases kind : token.kind with
  | identifier => simpa [kind] using shown
  | mark =>
    simp only [kind] at shown
    cases found : Mark.ofText? token.text <;> simp [found] at shown
  | _ => simp [kind] at shown

/-- A token with the lexeme of a literal is a literal with its text. -/
theorem kind_of_literal {token : Token} {text : String} (shown : token.lexeme = .literal text) :
    token.kind = .literal ∧ token.text = text := by
  unfold lexeme at shown
  cases kind : token.kind with
  | literal => simpa [kind] using shown
  | mark =>
    simp only [kind] at shown
    cases found : Mark.ofText? token.text <;> simp [found] at shown
  | _ => simp [kind] at shown

/-- A symbol is what the lexeme of a token makes it. -/
theorem terminal?_eq (token : Token) : token.terminal? = token.lexeme.terminal? := by
  -- The two look at category and text in the same way.
  unfold terminal? lexeme
  cases token.kind with
  | mark => cases Mark.ofText? token.text <;> rfl
  | _ => rfl

/-- A keyword is recognised by its lexeme. -/
theorem isKeyword_eq (token : Token) (word : Keyword) :
    token.isKeyword word = (token.lexeme == .keyword word) := by
  -- Only a keyword has the lexeme of one.
  rw [Bool.eq_iff_iff, beq_iff_eq]
  unfold isKeyword lexeme
  cases token.kind with
  | mark => cases Mark.ofText? token.text <;> simp
  | _ => simp

/-- A mark is recognised by its lexeme. -/
theorem isMark_eq (token : Token) (sign : Mark) :
    token.isMark sign = (token.lexeme == .mark sign) := by
  -- The text of the token is that of the mark exactly if the mark is found by it.
  have found := @Mark.ofText?_eq_some token.text sign
  rw [Bool.eq_iff_iff, beq_iff_eq]
  unfold isMark isPunctuation lexeme
  cases token.kind with
  | mark =>
    cases other : Mark.ofText? token.text with
    | none =>
      rw [other] at found
      simpa using fun same => (found.2 same).symm
    | some sign' =>
      rw [other] at found
      simpa using found.symm
  | _ => simp

/-- White space is recognised by its lexeme. -/
theorem isSpace_eq (token : Token) : token.isSpace = (token.lexeme == .space) := by
  -- Only white space has its lexeme.
  rw [Bool.eq_iff_iff, beq_iff_eq]
  unfold isSpace lexeme
  cases token.kind with
  | mark => cases Mark.ofText? token.text <;> simp
  | _ => simp

end Token

/-- Lexemes that a text may show: all genuine, and no two spaces in a row. -/
def Proper : List Lexeme → Prop
  -- The scanner takes white space in one run, so a second space cannot follow the first.
  | [] => True
  | lexeme :: rest =>
    lexeme.Genuine ∧ (lexeme = .space → rest.head? ≠ some .space) ∧ Proper rest

/-- Lexemes without the white space among them. -/
def strip (lexemes : List Lexeme) : List Lexeme :=
  -- Two texts that strip alike differ in white space only.
  lexemes.filter (· != .space)

/-- Lexemes without the white space in front of them. -/
def skip (lexemes : List Lexeme) : List Lexeme :=
  -- In proper lexemes there is one space at most to drop.
  lexemes.dropWhile (· == .space)

/-- Lexemes with each run of white space as one. -/
def squeeze : List Lexeme → List Lexeme
  -- Of a run only its first space is kept.
  | [] => []
  | lexeme :: lexemes =>
    if lexeme = .space then .space :: skip (squeeze lexemes) else lexeme :: squeeze lexemes

section Spaces

variable {lexeme : Lexeme} {lexemes others : List Lexeme}

/-- Nothing strips to nothing. -/
@[simp] theorem strip_nil : strip [] = [] := rfl

/-- White space is stripped. -/
@[simp] theorem strip_space : strip (.space :: lexemes) = strip lexemes := rfl

/-- All but white space is kept. -/
theorem strip_cons (solid : lexeme ≠ .space) :
    strip (lexeme :: lexemes) = lexeme :: strip lexemes := by
  simp [strip, solid]

/-- Lexemes are stripped one by one. -/
@[simp] theorem strip_append : strip (lexemes ++ others) = strip lexemes ++ strip others := by
  simp [strip]

/-- Nothing is left of nothing. -/
@[simp] theorem skip_nil : skip [] = [] := rfl

/-- White space is skipped. -/
@[simp] theorem skip_space : skip (.space :: lexemes) = skip lexemes := rfl

/-- All but white space stays in place. -/
theorem skip_cons (solid : lexeme ≠ .space) : skip (lexeme :: lexemes) = lexeme :: lexemes := by
  simp [skip, solid]

/-- Whatever is left after white space begins with something else. -/
theorem head?_skip (lexemes : List Lexeme) : (skip lexemes).head? ≠ some .space := by
  intro first
  have stopped := List.head?_dropWhile_not (· == .space) lexemes
  rw [skip] at first
  rw [first] at stopped
  simp at stopped

/-- Where no white space is in front, nothing is skipped. -/
theorem skip_eq_self (flush : lexemes.head? ≠ some .space) : skip lexemes = lexemes := by
  cases lexemes with
  | nil => rfl
  | cons lexeme lexemes => exact skip_cons (by simpa using flush)

/-- White space is skipped once and for all. -/
@[simp] theorem skip_skip : skip (skip lexemes) = skip lexemes :=
  skip_eq_self (head?_skip lexemes)

/-- White space is skipped in the first of two parts, or if that is all, in the second as well. -/
theorem skip_append : skip (lexemes ++ others) =
    if (skip lexemes).isEmpty then skip others else skip lexemes ++ others :=
  List.dropWhile_append

/-- Skipping drops only what stripping drops. -/
@[simp] theorem strip_skip : strip (skip lexemes) = strip lexemes := by
  induction lexemes with
  | nil => rfl
  | cons lexeme lexemes ih =>
    by_cases solid : lexeme = .space
    · subst solid
      simpa using ih
    · rw [skip_cons solid]

/-- The first of the stripped lexemes is the first after the white space in front. -/
theorem head?_strip : (strip lexemes).head? = (skip lexemes).head? := by
  induction lexemes with
  | nil => rfl
  | cons lexeme lexemes ih =>
    by_cases solid : lexeme = .space
    · subst solid
      simpa using ih
    · rw [skip_cons solid, strip_cons solid]
      rfl

/-- Nothing is squeezed to nothing. -/
@[simp] theorem squeeze_nil : squeeze [] = [] := rfl

/-- White space takes in the white space after it. -/
@[simp] theorem squeeze_space : squeeze (.space :: lexemes) = .space :: skip (squeeze lexemes) := by
  simp [squeeze]

/-- All but white space stays as it is. -/
theorem squeeze_cons (solid : lexeme ≠ .space) :
    squeeze (lexeme :: lexemes) = lexeme :: squeeze lexemes := by
  simp [squeeze, solid]

/-- What is left after white space is squeezed by itself. -/
@[simp] theorem skip_squeeze : skip (squeeze lexemes) = squeeze (skip lexemes) := by
  induction lexemes with
  | nil => rfl
  | cons first lexemes ih =>
    by_cases solid : first = .space
    · subst solid
      rw [squeeze_space, skip_space, skip_skip, ih, skip_space]
    · rw [squeeze_cons solid, skip_cons solid, skip_cons solid, squeeze_cons solid]

/-- Squeezing twice does what squeezing once does. -/
@[simp] theorem squeeze_squeeze : squeeze (squeeze lexemes) = squeeze lexemes := by
  induction lexemes with
  | nil => rfl
  | cons first lexemes ih =>
    by_cases solid : first = .space
    · subst solid
      rw [squeeze_space, squeeze_space, ← skip_squeeze, ih, skip_skip]
    · rw [squeeze_cons solid, squeeze_cons solid, ih]

/-- Squeezing the second of two parts first does nothing more. -/
@[simp] theorem squeeze_append_squeeze :
    squeeze (lexemes ++ squeeze others) = squeeze (lexemes ++ others) := by
  induction lexemes with
  | nil => exact squeeze_squeeze
  | cons first lexemes ih =>
    rw [List.cons_append, List.cons_append]
    by_cases solid : first = .space
    · subst solid
      rw [squeeze_space, squeeze_space, ih]
    · rw [squeeze_cons solid, squeeze_cons solid, ih]

/-- Squeezing keeps what comes first. -/
@[simp] theorem head?_squeeze : (squeeze lexemes).head? = lexemes.head? := by
  cases lexemes with
  | nil => rfl
  | cons first lexemes =>
    by_cases solid : first = .space
    · subst solid
      rw [squeeze_space]
      rfl
    · rw [squeeze_cons solid]
      rfl

end Spaces

/-- A token put back is the next one. -/
theorem Lexer.next_push (lexer : Lexer) (token : Token) :
    (lexer.push token).next = (.ok token, lexer) := by
  cases lexer
  rfl

/-- What a lexer still shows: the lexemes up to the end of input, or to the fault that stops it. -/
inductive Lexer.Shows : Lexer → List Lexeme → Option LexError → Prop where
  | ended {lexer after : Lexer} {token : Token} (taken : lexer.next = (.ok token, after))
      (ending : token.isEof = true) : Shows lexer [] none
  | failed {lexer after : Lexer} {error : LexError} (taken : lexer.next = (.error error, after)) :
      Shows lexer [] (some error)
  | token {lexer after : Lexer} {token : Token} {rest : List Lexeme} {fault : Option LexError}
      (taken : lexer.next = (.ok token, after)) (real : token.isEof = false)
      (shows : Shows after rest fault) : Shows lexer (token.lexeme :: rest) fault

namespace Lexer.Shows

variable {lexer after : Lexer} {lexemes : List Lexeme} {fault : Option LexError} {token : Token}

/-- A token taken is the first lexeme shown, and the end of input comes after the last. -/
theorem of_next (shown : lexer.Shows lexemes fault) (taken : lexer.next = (.ok token, after)) :
    (∃ rest, token.isEof = false ∧ lexemes = token.lexeme :: rest ∧ after.Shows rest fault) ∨
      (token.isEof = true ∧ lexemes = [] ∧ fault = none) := by
  -- The lexer has one next token only.
  cases shown with
  | ended other ending =>
    rw [taken] at other
    simp only [Prod.mk.injEq, Except.ok.injEq] at other
    obtain ⟨rfl, rfl⟩ := other
    exact Or.inr ⟨ending, rfl, rfl⟩
  | failed other =>
    rw [taken] at other
    simp at other
  | token other real shows =>
    rw [taken] at other
    simp only [Prod.mk.injEq, Except.ok.injEq] at other
    obtain ⟨rfl, rfl⟩ := other
    exact Or.inl ⟨_, real, rfl, shows⟩

/-- Where a lexeme is shown, a token with it can be taken. -/
theorem next_cons {lexeme : Lexeme} (shown : lexer.Shows (lexeme :: lexemes) fault) :
    ∃ token after, lexer.next = (.ok token, after) ∧ token.isEof = false ∧
      token.lexeme = lexeme ∧ after.Shows lexemes fault := by
  cases shown with
  | token taken real shows => exact ⟨_, _, taken, real, rfl, shows⟩

/-- Where nothing is shown and nothing is at fault, the end of input can be taken. -/
theorem next_nil (shown : lexer.Shows [] none) :
    ∃ token after, lexer.next = (.ok token, after) ∧ token.isEof = true := by
  cases shown with
  | ended taken ending => exact ⟨_, _, taken, ending⟩

/-- A token that is put back is shown again. -/
theorem push (shown : lexer.Shows lexemes fault) (taken : lexer.next = (.ok token, after)) :
    (after.push token).Shows lexemes fault := by
  -- What follows the token is as before.
  have again := after.next_push token
  rcases shown.of_next taken with ⟨rest, real, rfl, shows⟩ | ⟨ending, rfl, rfl⟩
  · exact .token again real shows
  · exact .ended again ending

/-- A lexer shows one thing only. -/
theorem unique {others : List Lexeme} {other : Option LexError} (shown : lexer.Shows lexemes fault)
    (again : lexer.Shows others other) : lexemes = others ∧ fault = other := by
  -- The lexer takes one step only from each state, and the two rows follow it together.
  induction shown generalizing others with
  | ended taken ending =>
    rcases again.of_next taken with ⟨_, real, _⟩ | ⟨_, rfl, rfl⟩
    · rw [ending] at real
      cases real
    · exact ⟨rfl, rfl⟩
  | failed taken =>
    cases again with
    | ended other _ => rw [taken] at other; cases other
    | failed other =>
      rw [taken] at other
      simp only [Prod.mk.injEq, Except.error.injEq] at other
      exact ⟨rfl, by rw [other.1]⟩
    | token other _ _ => rw [taken] at other; cases other
  | token taken real shows ih =>
    rcases again.of_next taken with ⟨rest, _, rfl, following⟩ | ⟨ending, _, _⟩
    · obtain ⟨rfl, rfl⟩ := ih following
      exact ⟨rfl, rfl⟩
    · rw [real] at ending
      cases ending

end Lexer.Shows

end SelectSql
