import SelectSql.Proofs.Lexical.Remaining

/-!
What a whole text shows. Every text shows proper lexemes, up to its end or to the fault in it, and
its tokens are these lexemes with places added.
-/

namespace SelectSql

/-- The category and the text of a token. -/
def Token.word (token : Token) : TokenKind × String :=
  -- The span is left out, so tokens of two texts can be compared.
  (token.kind, token.text)

/-- What the tokens of a text say, in order, white space left out. -/
def wordsOf (tokens : List Token) : List (TokenKind × String) :=
  -- The end of input is kept, as the last word.
  (tokens.filter (!·.isSpace)).map Token.word

/-- A lexeme is known by its category and text. -/
theorem Lexeme.word_injective : Function.Injective Lexeme.word := by
  -- The category tells the constructor apart, and the text the rest.
  have marks : ∀ sign other : Mark, sign.text = other.text → sign = other := by
    intro sign other same
    have found := Mark.ofText?_eq_some.2 same
    rw [Mark.ofText?_eq_some.2 rfl] at found
    exact Option.some.inj found
  intro lexeme other same
  cases lexeme with
  | symbol terminal =>
    cases terminal with
    | keyword word =>
      rcases other with (_ | _) | _ | _ | _ | _ <;> simp_all [Lexeme.word]
    | mark sign =>
      cases other with
      | symbol other =>
        cases other with
        | keyword word => simp [Lexeme.word] at same
        | mark other => rw [marks sign other (by simpa [Lexeme.word] using same)]
      | _ => simp [Lexeme.word] at same
  | _ => rcases other with (_ | _) | _ | _ | _ | _ <;> simp_all [Lexeme.word]

/-- A token whose text is admitted has a genuine lexeme that spells what the token spells. -/
theorem Token.lexeme_of_admits {kind : TokenKind} {taken : List Char} (span : Span)
    (admitted : kind.Admits taken) :
    let token : Token := ⟨kind, kind.textOf taken, span⟩
    token.isEof = false ∧ token.lexeme.Genuine ∧ (token.lexeme = .space ↔ kind = .space) ∧
      (kind ≠ .space → token.lexeme.word = token.word) := by
  -- Each category has a lexeme of its own.
  cases kind with
  | keyword word =>
    simp [Token.isEof, Token.lexeme, Lexeme.Genuine, Lexeme.word, Token.word, TokenKind.textOf]
  | identifier =>
    have name : IsName (String.ofList taken) := admitted
    simpa [Token.isEof, Token.lexeme, Lexeme.Genuine, Lexeme.word, Token.word, TokenKind.textOf]
      using name
  | literal =>
    have literal : IsLiteral (String.ofList taken) := admitted
    simpa [Token.isEof, Token.lexeme, Lexeme.Genuine, Lexeme.word, Token.word, TokenKind.textOf]
      using literal
  | mark =>
    obtain ⟨sign, rfl⟩ := admitted
    have found : Mark.ofText? (String.ofList sign.chars) = some sign :=
      Mark.ofText?_eq_some.2 rfl
    simp [Token.isEof, Token.lexeme, Lexeme.Genuine, Lexeme.word, Token.word, TokenKind.textOf,
      found, Mark.text]
  | space =>
    simp [Token.isEof, Token.lexeme, Lexeme.Genuine]
  | eof => exact admitted.elim

namespace Lexer

variable {lexer : Lexer} {lexemes : List Lexeme}

/-- A lexer with nothing put back takes its next token from the text. -/
theorem next_eq_scan (fresh : lexer.pushed = []) : lexer.next = lexer.scan := by
  -- Only tokens put back would come before the text.
  unfold next
  rw [fresh]

/-- A text shows the lexeme at its front and then what the rest of it shows. -/
theorem Shows.of_readLexeme {kind : TokenKind} {taken rest : List Char} {fault : Option LexError}
    {position : Nat} (found : readLexeme lexer.rest = .lexeme kind taken rest)
    (fresh : lexer.pushed = []) (span : Span)
    (place : span = ⟨lexer.position, lexer.position + byteLength taken⟩)
    (after : position = lexer.position + byteLength taken)
    (shown : (⟨rest, position, []⟩ : Lexer).Shows lexemes fault) :
    lexer.Shows ((⟨kind, kind.textOf taken, span⟩ : Token).lexeme :: lexemes) fault := by
  have real := (Token.lexeme_of_admits span (admits_of_readLexeme found).1).1
  -- The token is scanned, and nothing is put back after it.
  have taken : lexer.next = (.ok ⟨kind, kind.textOf taken, span⟩, ⟨rest, position, []⟩) := by
    rw [next_eq_scan fresh]
    unfold scan
    rw [found, place, after, ← fresh]
  exact .token taken real shown

/-- A lexer with nothing put back shows proper lexemes, the first no space if none is next. -/
private theorem exists_shows_of_fresh (size : Nat) :
    ∀ lexer : Lexer, lexer.pushed = [] → lexer.rest.length ≤ size →
      ∃ lexemes fault, lexer.Shows lexemes fault ∧ Proper lexemes ∧
        ((∀ char ∈ lexer.rest.head?, isBlank char = false) → lexemes.head? ≠ some .space) := by
  -- Each token shortens the text, so the induction is on its length.
  induction size with
  | zero =>
    intro lexer fresh short
    have empty : lexer.rest = [] := List.length_eq_zero_iff.1 (by omega)
    have taken : lexer.next = (.ok (.eof lexer.position), lexer) := by
      rw [next_eq_scan fresh]
      unfold scan
      rw [empty]
      rfl
    exact ⟨[], none, .ended taken rfl, trivial, by simp⟩
  | succ size ih =>
    intro lexer fresh short
    have scanned := next_eq_scan fresh
    unfold scan at scanned
    cases found : readLexeme lexer.rest with
    | finished =>
      rw [found] at scanned
      exact ⟨[], none, .ended scanned rfl, trivial, by simp⟩
    | unclosed delimiter =>
      rw [found] at scanned
      exact ⟨[], _, .failed scanned, trivial, by simp⟩
    | unknown =>
      rw [found] at scanned
      exact ⟨[], _, .failed scanned, trivial, by simp⟩
    | lexeme kind taken rest =>
      have shorter := rest_shorter_of_readLexeme found
      obtain ⟨lexemes, fault, shown, proper, starts⟩ :=
        ih ⟨rest, lexer.position + byteLength taken, []⟩ rfl (by simp only; omega)
      obtain ⟨admitted, stops⟩ := admits_of_readLexeme found
      obtain ⟨_, genuine, space, _⟩ := Token.lexeme_of_admits
        ⟨lexer.position, lexer.position + byteLength taken⟩ admitted
      refine ⟨_, fault, .of_readLexeme found fresh _ rfl rfl shown, ⟨genuine, ?_, proper⟩, ?_⟩
      · -- White space is taken to its end, so no more of it follows.
        intro same
        have isSpace := space.1 same
        subst isSpace
        exact starts stops
      · -- A space shown first is a blank that the text begins with.
        intro noBlank same
        have isSpace := space.1 (Option.some.inj same)
        subst isSpace
        obtain ⟨nonempty, blanks⟩ := admitted
        obtain ⟨first, others, rfl⟩ := List.exists_cons_of_ne_nil nonempty
        have whole := append_of_readLexeme found
        have blank := blanks first (by simp)
        rw [noBlank first (by simp [← whole])] at blank
        cases blank

/-- Every text shows proper lexemes. -/
theorem exists_shows (text : String) :
    ∃ lexemes fault, (ofText text).Shows lexemes fault ∧ Proper lexemes := by
  -- A text has nothing put back.
  obtain ⟨lexemes, fault, shown, proper, _⟩ :=
    exists_shows_of_fresh _ (ofText text) rfl (Nat.le_refl _)
  exact ⟨lexemes, fault, shown, proper⟩

/-- A token taken from the text spells what its lexeme does, and nothing is put back. -/
private theorem next_of_fresh {after : Lexer} {token : Token} (fresh : lexer.pushed = [])
    (taken : lexer.next = (.ok token, after)) :
    after.pushed = [] ∧ (token.isEof = true → token.word = (.eof, "")) ∧
      (token.isEof = false → token.isSpace = false → token.lexeme.word = token.word) := by
  -- The token is the end of input or has an admitted text.
  rw [next_eq_scan fresh] at taken
  unfold scan at taken
  cases found : readLexeme lexer.rest with
  | finished =>
    rw [found] at taken
    simp only [Prod.mk.injEq, Except.ok.injEq] at taken
    obtain ⟨rfl, rfl⟩ := taken
    exact ⟨fresh, fun _ => rfl, fun real => by cases real⟩
  | lexeme kind chars rest =>
    rw [found] at taken
    simp only [Prod.mk.injEq, Except.ok.injEq] at taken
    obtain ⟨rfl, rfl⟩ := taken
    obtain ⟨real, _, _, spells⟩ := Token.lexeme_of_admits
      ⟨lexer.position, lexer.position + byteLength chars⟩ (admits_of_readLexeme found).1
    refine ⟨fresh, ?_, ?_⟩
    · intro ending
      rw [real] at ending
      cases ending
    · intro _ solid
      apply spells
      intro same
      subst same
      cases solid
  | unclosed delimiter =>
    rw [found] at taken
    simp at taken
  | unknown =>
    rw [found] at taken
    simp at taken

/-- A scanner stopped by a fault has no tokens to give. -/
theorem tokenizeAll_failed {after : Lexer} {error : LexError}
    (taken : lexer.next = (.error error, after)) : lexer.tokenizeAll.1 = .error error := by
  rw [tokenizeAll]
  split
  · rename_i other
    rw [taken] at other
    simp only [Prod.mk.injEq, Except.error.injEq] at other
    rw [other.1]
  · rename_i other
    rw [taken] at other
    simp at other

/-- A scanner gives the next token, and those after it unless that is the end of input. -/
theorem tokenizeAll_of_next {after : Lexer} {token : Token}
    (taken : lexer.next = (.ok token, after)) :
    lexer.tokenizeAll = if token.isEof then (.ok [token], after)
      else after.tokenizeAll.map (·.map (token :: ·)) id := by
  rw [tokenizeAll]
  split
  · rename_i other
    rw [taken] at other
    simp at other
  · rename_i other
    rw [taken] at other
    simp only [Prod.mk.injEq, Except.ok.injEq] at other
    obtain ⟨rfl, rfl⟩ := other
    split
    · rfl
    · rcases after.tokenizeAll with ⟨_ | _, _⟩ <;> rfl

/-- A scanner at the end of input gives that alone. -/
theorem tokenizeAll_ended {after : Lexer} {token : Token}
    (taken : lexer.next = (.ok token, after)) (ending : token.isEof = true) :
    lexer.tokenizeAll.1 = .ok [token] := by
  rw [tokenizeAll_of_next taken, if_pos ending]

/-- A scanner gives the next token and then those after it. -/
theorem tokenizeAll_token {after : Lexer} {token : Token}
    (taken : lexer.next = (.ok token, after)) (real : token.isEof = false) :
    lexer.tokenizeAll.1 = after.tokenizeAll.1.map (token :: ·) := by
  rw [tokenizeAll_of_next taken, real]
  rfl

/-- The tokens of a lexer with nothing put back are what it shows, with the end of input last. -/
private theorem tokenizeAll_of_shows {fault : Option LexError} (shown : lexer.Shows lexemes fault)
    (fresh : lexer.pushed = []) :
    match fault with
    | some error => lexer.tokenizeAll.1 = .error error
    | none => ∃ tokens, lexer.tokenizeAll.1 = .ok tokens ∧
        tokens.map Token.lexeme = lexemes ++ [.foreign] ∧
        wordsOf tokens = (strip lexemes).map Lexeme.word ++ [(.eof, "")] := by
  induction shown with
  | @ended lexer after token taken ending =>
    obtain ⟨_, word, _⟩ := next_of_fresh fresh taken
    have solid : token.isSpace = false := by
      rw [Token.isSpace_eq, Token.lexeme_of_isEof ending]
      rfl
    refine ⟨[token], tokenizeAll_ended taken ending, ?_, ?_⟩
    · simp [Token.lexeme_of_isEof ending]
    · simp [wordsOf, solid, word ending]
  | failed taken => exact tokenizeAll_failed taken
  | @token lexer after token rest fault taken real shows ih =>
    obtain ⟨left, _, spells⟩ := next_of_fresh fresh taken
    have following := ih left
    have step := tokenizeAll_token taken real
    cases fault with
    | some error =>
      simp only at following ⊢
      rw [step, following]
      rfl
    | none =>
      obtain ⟨tokens, all, lexemes, words⟩ := following
      refine ⟨token :: tokens, by rw [step, all]; rfl, by simp [lexemes], ?_⟩
      -- White space is left out on both sides, and any other token spells what its lexeme does.
      have space := Token.isSpace_eq token
      cases solid : token.isSpace with
      | true =>
        rw [solid] at space
        rw [beq_iff_eq.1 space.symm]
        simpa [wordsOf, solid] using words
      | false =>
        rw [solid] at space
        have other : token.lexeme ≠ .space := by simpa using space
        rw [strip_cons other, List.map_cons, List.cons_append, ← words, spells real solid]
        simp [wordsOf, solid]

end Lexer

variable {text : String} {lexemes : List Lexeme}

/-- A text without a fault splits into tokens, which are what it shows. -/
theorem tokenize_of_shows (shown : (Lexer.ofText text).Shows lexemes none) :
    ∃ tokens, tokenize text = .ok tokens ∧ tokens.map Token.lexeme = lexemes ++ [.foreign] ∧
      wordsOf tokens = (strip lexemes).map Lexeme.word ++ [(.eof, "")] :=
  -- A text has nothing put back.
  Lexer.tokenizeAll_of_shows shown rfl

/-- A text that splits into tokens shows proper lexemes and no fault. -/
theorem shows_of_tokenize {tokens : List Token} (split : tokenize text = .ok tokens) :
    ∃ lexemes, (Lexer.ofText text).Shows lexemes none ∧ Proper lexemes ∧
      tokens.map Token.lexeme = lexemes ++ [.foreign] ∧
      wordsOf tokens = (strip lexemes).map Lexeme.word ++ [(.eof, "")] := by
  obtain ⟨lexemes, fault, shown, proper⟩ := Lexer.exists_shows text
  have whole := Lexer.tokenizeAll_of_shows shown rfl
  -- A fault would have stopped the scanner.
  cases fault with
  | some error =>
    rw [← tokenize, split] at whole
    cases whole
  | none =>
    obtain ⟨others, all, shape, words⟩ := whole
    rw [← tokenize, split] at all
    obtain rfl := Except.ok.inj all
    exact ⟨lexemes, shown, proper, shape, words⟩

end SelectSql
