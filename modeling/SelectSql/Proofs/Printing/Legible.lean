import SelectSql.Layout.Piece
import SelectSql.Proofs.Lexical.Scanned
import SelectSql.Proofs.Spelling.Reach

/-!
Printed pieces and what the scanner makes of them. Pieces of which no two neighbours run into each
other are scanned back as the lexemes they were printed for, with each run of white space as one.
-/

namespace SelectSql

/-- The characters that a lexeme may be written with in printed text. -/
def Lexeme.Written (chars : List Char) : Lexeme → Prop
  -- A symbol has one printed spelling; names and literals are their own.
  | symbol terminal => chars = terminal.text.toList
  | name text => IsName text ∧ chars = text.toList
  | literal text => IsLiteral text ∧ chars = text.toList
  | space => chars ≠ [] ∧ ∀ char ∈ chars, isBlank char = true
  | foreign => False

/-- Whether a lexeme ends where a character comes next. -/
def Lexeme.endsAt (char : Char) : Lexeme → Bool
  | symbol (.keyword _) => !isWordChar char
  | symbol (.mark _) => char != '=' && char != '>'
  | name _ => !isWordChar char && char != '"' && char != '\x60'
  | literal _ => !char.isDigit && char != '.' && char != '\''
  | space => !isBlank char
  | foreign => true

/-- Whether a lexeme may touch the next one without running into it. -/
def Lexeme.mayTouch : Lexeme → Lexeme → Bool
  -- Three marks could lengthen another, and a point could lengthen a number.
  | space, _ | _, space => true
  | symbol (.mark _), symbol (.mark sign) => sign ∉ [Mark.equal, .greater, .greaterOrEqual]
  | symbol (.mark _), _ => true
  | literal _, symbol (.mark sign) => sign ≠ .dot
  | _, symbol (.mark _) => true
  | _, _ => false

namespace Piece

/-- Whether a piece is white space. -/
def isBlank : Piece → Bool
  | space | line _ | joint _ => true
  | _ => false

/-- The lexeme that a piece is printed for. -/
def lexeme : Piece → Lexeme
  | symbol terminal => .symbol terminal
  | verbatim text => .ofText text
  | space | line _ | joint _ => .space

/-- Whether the text of a piece is one that a tree may hold. -/
def Sound : Piece → Prop
  | verbatim text => IsName text ∨ IsLiteral text ∨ text = "NULL" ∨ text = "*"
  | _ => True

end Piece

/-- What pieces in a row show, with each run of white space as one. -/
def shown : List Piece → List Lexeme
  | [] => []
  | piece :: pieces =>
    if piece.isBlank then .space :: skip (shown pieces) else piece.lexeme :: shown pieces

/-- Pieces that are scanned back as they were printed. -/
def Legible : List Piece → Prop
  -- Only neighbours can run into each other.
  | [] => True
  | piece :: pieces => piece.Sound ∧
    (∀ next ∈ pieces.head?, piece.lexeme.mayTouch next.lexeme = true) ∧ Legible pieces

variable {lexeme next : Lexeme} {piece : Piece} {pieces : List Piece} {chars rest : List Char}

section Writing

/-- White space begins no word, no mark and no quote. -/
private theorem endsAt_of_isBlank {char : Char} (blank : isBlank char = true)
    (solid : lexeme ≠ .space) : lexeme.endsAt char = true := by
  obtain ⟨noWord, noDigit⟩ := not_isWordChar_of_isBlank blank
  -- White space is no word character, and none of the signs that would lengthen a lexeme.
  have other : ∀ sign : Char, isBlank sign = false → (char != sign) = true := by
    intro sign fails
    rw [bne_iff_ne]
    rintro rfl
    rw [fails] at blank
    cases blank
  cases lexeme with
  | symbol terminal =>
    cases terminal with
    | keyword word => simp [Lexeme.endsAt, noWord]
    | mark sign =>
      simp only [Lexeme.endsAt, other '=' (by decide), other '>' (by decide), Bool.and_self]
  | name text =>
    simp only [Lexeme.endsAt, noWord, other '"' (by decide), other '\x60' (by decide),
      Bool.not_false, Bool.and_self]
  | literal text =>
    simp only [Lexeme.endsAt, noDigit, other '.' (by decide), other '\'' (by decide),
      Bool.not_false, Bool.and_self]
  | space => exact absurd rfl solid
  | foreign => rfl

/-- The first character of a word, a name or a literal is no part of a mark or of white space. -/
private theorem endsAt_of_word {char : Char}
    (first : isWordChar char = true ∨ char ∈ ['"', '\x60', '\'']) :
    (∀ sign, (Lexeme.mark sign).endsAt char = true) ∧ Lexeme.space.endsAt char = true := by
  -- A word character is neither a sign nor white space, and of the quotes that is plain to see.
  rcases first with letter | quote
  · have other : ∀ mark : Char, isWordChar mark = false → (char != mark) = true := by
      intro mark fails
      rw [bne_iff_ne]
      rintro rfl
      rw [fails] at letter
      cases letter
    refine ⟨fun sign => ?_, ?_⟩
    · simp only [Lexeme.endsAt, other '=' (by decide), other '>' (by decide), Bool.and_self]
    · cases blank : isBlank char with
      | false => simp [Lexeme.endsAt, blank]
      | true =>
        rw [(not_isWordChar_of_isBlank blank).1] at letter
        cases letter
  · simp only [List.mem_cons, List.not_mem_nil, or_false] at quote
    rcases quote with rfl | rfl | rfl <;> exact ⟨fun _ => rfl, rfl⟩

/-- All but white space and marks begins with a word character or a quote. -/
private theorem first_of_written (written : next.Written chars)
    (noMark : ∀ sign, next ≠ .mark sign) (solid : next ≠ .space) :
    ∃ char others, chars = char :: others ∧
      (isWordChar char = true ∨ char ∈ ['"', '\x60', '\'']) := by
  -- A keyword and a bare name begin with a letter, a number with a digit, and all else with a
  -- quote.
  cases next with
  | symbol terminal =>
    cases terminal with
    | keyword word =>
      obtain ⟨⟨char, others, shape, letter, _⟩, _⟩ := word.admits_capitals
      exact ⟨char, others, by rw [show chars = _ from written, ← shape]; rfl, Or.inl letter⟩
    | mark sign => exact absurd rfl (noMark sign)
  | name text =>
    obtain ⟨⟨⟨char, others, shape, letter, _⟩, _⟩ | ⟨body, _, shape⟩ | ⟨body, _, shape⟩, rfl⟩ :=
      written
    · exact ⟨char, others, shape, Or.inl letter⟩
    · exact ⟨'"', _, shape, Or.inr (by decide)⟩
    · exact ⟨'\x60', _, shape, Or.inr (by decide)⟩
  | literal text =>
    obtain ⟨⟨whole, nonempty, all, shape⟩ | ⟨body, _, shape⟩, rfl⟩ := written
    · obtain ⟨digit, others, rfl⟩ := List.exists_cons_of_ne_nil nonempty
      have letter : isWordChar digit = true := by
        simp [isWordChar, Char.isAlphanum, all digit (by simp)]
      rcases shape with shape | ⟨fraction, _, _, shape⟩
      · exact ⟨digit, others, shape, Or.inl letter⟩
      · exact ⟨digit, others ++ '.' :: fraction, shape, Or.inl letter⟩
    · exact ⟨'\'', _, shape, Or.inr (by decide)⟩
  | space => exact absurd rfl solid
  | foreign => exact written.elim

/-- A lexeme ends where one begins that may touch it, unless both are white space. -/
theorem Lexeme.endsAt_of_mayTouch (written : next.Written chars)
    (apart : lexeme.mayTouch next = true) (solid : lexeme = .space → next ≠ .space) :
    ∀ char ∈ (chars ++ rest).head?, lexeme.endsAt char = true := by
  intro char first
  -- White space ends everything else, and a mark ends all that it cannot lengthen.
  by_cases blank : next = .space
  · subst blank
    obtain ⟨nonempty, blanks⟩ := written
    obtain ⟨start, others, rfl⟩ := List.exists_cons_of_ne_nil nonempty
    obtain rfl : start = char := Option.some.inj first
    exact endsAt_of_isBlank (blanks start (by simp)) fun same => solid same rfl
  by_cases mark : ∃ sign, next = .mark sign
  · obtain ⟨sign, rfl⟩ := mark
    have shape : chars = sign.chars := by
      rw [show chars = _ from written]
      exact String.toList_ofList
    subst shape
    rcases lexeme with (_ | _) | _ | _ | _ | _ <;> cases sign <;> cases first <;>
      first | rfl | cases apart
  -- Anything else may touch marks and white space only.
  have noMark : ∀ sign, next ≠ .mark sign := fun sign same => mark ⟨sign, same⟩
  obtain ⟨start, others, rfl, starts⟩ := first_of_written written noMark blank
  obtain rfl : start = char := Option.some.inj first
  obtain ⟨marks, spaces⟩ := endsAt_of_word starts
  have before : lexeme = .space ∨ ∃ sign, lexeme = .mark sign := by
    rcases lexeme with (_ | sign) | _ | _ | _ | _
    · rcases next with (_ | other) | _ | _ | _ | _ <;>
        first | exact absurd rfl (noMark other) | exact absurd rfl blank | cases apart
    · exact Or.inr ⟨sign, rfl⟩
    · rcases next with (_ | other) | _ | _ | _ | _ <;>
        first | exact absurd rfl (noMark other) | exact absurd rfl blank | cases apart
    · rcases next with (_ | other) | _ | _ | _ | _ <;>
        first | exact absurd rfl (noMark other) | exact absurd rfl blank | cases apart
    · exact Or.inl rfl
    · rcases next with (_ | other) | _ | _ | _ | _ <;>
        first | exact absurd rfl (noMark other) | exact absurd rfl blank | cases apart
  rcases before with rfl | ⟨sign, rfl⟩
  · exact spaces
  · exact marks sign

/-- A lexeme is scanned from its characters where it ends. -/
theorem Lexeme.readLexeme_of_written (written : lexeme.Written chars)
    (stop : ∀ char ∈ rest.head?, lexeme.endsAt char = true) :
    ∃ kind, readLexeme (chars ++ rest) = .lexeme kind chars rest ∧
      ∀ span, (⟨kind, kind.textOf chars, span⟩ : Token).lexeme = lexeme := by
  -- Each kind of lexeme is scanned by a rule of its own, and what it ends at is what stops that
  -- rule.
  cases lexeme with
  | symbol terminal =>
    cases terminal with
    | keyword word =>
      obtain ⟨shape, found⟩ := word.admits_capitals
      obtain rfl : chars = word.capitals.toList := written
      refine ⟨.keyword word, ?_, fun _ => rfl⟩
      have kind : wordKind word.capitals.toList = .keyword word := by rw [wordKind, found]
      rw [readLexeme_word shape (by simpa [endsAt] using stop), kind]
    | mark sign =>
      have shape : chars = sign.chars := by
        rw [show chars = _ from written]
        exact String.toList_ofList
      subst shape
      have ends : TokenKind.mark.EndsBefore sign.chars rest := by
        simp only [endsAt, Bool.and_eq_true, bne_iff_ne] at stop
        exact ⟨fun _ => ⟨fun same => (stop _ same).1 rfl, fun same => (stop _ same).2 rfl⟩,
          fun _ same => (stop _ same).1 rfl⟩
      refine ⟨.mark, readLexeme_mark sign ends, ?_⟩
      intro span
      have known : Mark.ofText? (TokenKind.mark.textOf sign.chars) = some sign :=
        Mark.ofText?_eq_some.2 rfl
      simp [Token.lexeme, known]
  | name text =>
    obtain ⟨named, rfl⟩ := written
    have ends : ∀ char ∈ rest.head?, isWordChar char = false ∧ char ≠ '"' ∧ char ≠ '\x60' := by
      intro char first
      have ends := stop char first
      simp only [endsAt, Bool.and_eq_true, Bool.not_eq_true', bne_iff_ne] at ends
      exact ⟨ends.1.1, ends.1.2, ends.2⟩
    refine ⟨.identifier, ?_, fun _ => by simp [Token.lexeme, TokenKind.textOf]⟩
    -- A bare name ends where a word does, and a delimited one at its delimiter.
    rcases named with ⟨shape, unknown⟩ | quoted | quoted
    · have kind : wordKind text.toList = .identifier := by
        rw [wordKind, String.ofList_toList, unknown]
      rw [readLexeme_word shape fun char first => (ends char first).1, kind]
    · have opens : QuoteStyle.ofDelimiter? '"' = some .double := rfl
      exact readLexeme_quoted opens quoted fun _ first => (ends _ first).2.1 rfl
    · have opens : QuoteStyle.ofDelimiter? '\x60' = some .backTick := rfl
      exact readLexeme_quoted opens quoted fun _ first => (ends _ first).2.2 rfl
  | literal text =>
    obtain ⟨literal, rfl⟩ := written
    have ends : ∀ char ∈ rest.head?, char.isDigit = false ∧ char ≠ '.' ∧ char ≠ '\'' := by
      intro char first
      have ends := stop char first
      simp only [endsAt, Bool.and_eq_true, Bool.not_eq_true', bne_iff_ne] at ends
      exact ⟨ends.1.1, ends.1.2, ends.2⟩
    refine ⟨.literal, ?_, fun _ => by simp [Token.lexeme, TokenKind.textOf]⟩
    -- A number goes on at a point only before a digit, and here no point comes next.
    rcases literal with number | quoted
    · have noPoint : rest.head? ≠ some '.' := fun first => (ends _ first).2.1 rfl
      apply readLexeme_number number fun char first => (ends char first).1
      rintro _ digit others rfl
      exact absurd rfl noPoint
    · have opens : QuoteStyle.ofDelimiter? '\'' = some .single := rfl
      exact readLexeme_quoted opens quoted fun _ first => (ends _ first).2.2 rfl
  | space =>
    obtain ⟨nonempty, blanks⟩ := written
    exact ⟨.space, readLexeme_space nonempty blanks (by simpa [endsAt] using stop), fun _ => rfl⟩
  | foreign => exact written.elim

end Writing

section Showing

/-- The text of a sound piece is a spelling of its lexeme. -/
theorem Piece.written (sound : piece.Sound) : piece.lexeme.Written piece.text.toList := by
  have blanks : ∀ indent, Lexeme.space.Written (Piece.lineText indent).toList := by
    intro indent
    rw [Piece.lineText, String.toList_ofList]
    refine ⟨by simp, ?_⟩
    intro char member
    rcases List.mem_cons.1 member with rfl | member
    · rfl
    · rw [List.eq_of_mem_replicate member]
      rfl
  have single : Lexeme.space.Written " ".toList := by
    refine ⟨by decide, ?_⟩
    intro char member
    obtain rfl : char = ' ' := by simpa using member
    rfl
  cases piece with
  | symbol terminal => rfl
  | verbatim text =>
    -- The text of a tree is a name, a literal, or one of the two symbols.
    rcases sound with named | literal | rfl | rfl
    · simp only [Piece.lexeme, named.ofText_eq]
      exact ⟨named, rfl⟩
    · simp only [Piece.lexeme, literal.ofText_eq]
      exact ⟨literal, rfl⟩
    · show "NULL".toList = Keyword.null.capitals.toList
      decide +kernel
    · show "*".toList = Mark.star.text.toList
      decide +kernel
  | space => exact single
  | line indent => exact blanks indent
  | joint indent =>
    cases indent with
    | none => exact single
    | some indent => exact blanks indent

/-- White space is a piece of its own kind. -/
theorem Piece.lexeme_eq_space (sound : piece.Sound) :
    piece.lexeme = .space ↔ piece.isBlank = true := by
  cases piece with
  | verbatim text =>
    rcases sound with named | literal | rfl | rfl
    · simp [Piece.lexeme, Piece.isBlank, named.ofText_eq]
    · simp [Piece.lexeme, Piece.isBlank, literal.ofText_eq]
    · decide
    · decide
  | _ => simp [Piece.lexeme, Piece.isBlank]

/-- Pieces are written one after the other. -/
theorem Piece.toList_concat_cons :
    (Piece.concat (piece :: pieces)).toList =
      piece.text.toList ++ (Piece.concat pieces).toList := by
  rw [Piece.concat, Piece.concat, List.map_cons, String.join_cons, String.toList_append]

/-- Nothing is shown by nothing. -/
@[simp] theorem shown_nil : shown [] = [] := rfl

/-- A piece of white space is shown as one with those that follow it. -/
theorem shown_blank (blank : piece.isBlank = true) :
    shown (piece :: pieces) = .space :: skip (shown pieces) := by
  rw [shown, if_pos blank]

/-- Any other piece is shown by itself. -/
theorem shown_solid (solid : piece.isBlank = false) :
    shown (piece :: pieces) = piece.lexeme :: shown pieces := by
  rw [shown, if_neg (by simp [solid])]

/-- The first of the pieces is shown first. -/
theorem head?_shown : (shown pieces).head? = pieces.head?.map Piece.lexeme := by
  cases pieces with
  | nil => rfl
  | cons piece pieces =>
    -- White space is shown as one lexeme however much follows it.
    cases blank : piece.isBlank with
    | true =>
      rw [shown_blank blank]
      cases piece <;> first | rfl | cases blank
    | false =>
      rw [shown_solid blank]
      rfl

/-- Legible pieces are scanned as what they show, also right after white space. -/
private theorem shows_of_legible (legible : Legible pieces) :
    (∀ position, (⟨(Piece.concat pieces).toList, position, []⟩ : Lexer).Shows (shown pieces) none) ∧
      ∀ blanks position, Lexeme.space.Written blanks →
        (⟨blanks ++ (Piece.concat pieces).toList, position, []⟩ : Lexer).Shows
          (.space :: skip (shown pieces)) none := by
  -- White space already scanned is carried along, since a run of it is one lexeme.
  induction pieces with
  | nil =>
    have ended : ∀ position, (⟨[], position, []⟩ : Lexer).Shows [] none := fun _ => .ended rfl rfl
    refine ⟨ended, ?_⟩
    intro blanks position written
    obtain ⟨kind, found, same⟩ := @Lexeme.readLexeme_of_written .space blanks [] written (by simp)
    rw [← same ⟨position, position + byteLength blanks⟩]
    exact .of_readLexeme found rfl _ rfl rfl (ended _)
  | cons piece pieces ih =>
    obtain ⟨sound, apart, legible⟩ := legible
    obtain ⟨alone, spaced⟩ := ih legible
    have written := Piece.written sound
    cases blank : piece.isBlank with
    | true =>
      rw [shown_blank blank, Piece.toList_concat_cons]
      rw [(Piece.lexeme_eq_space sound).2 blank] at written
      refine ⟨fun position => spaced _ position written, ?_⟩
      intro blanks position before
      rw [← List.append_assoc, skip_space, skip_skip]
      -- A run of white space goes on, and is still one lexeme.
      refine spaced _ position ⟨by simp [before.1], ?_⟩
      intro char member
      rcases List.mem_append.1 member with member | member
      · exact before.2 char member
      · exact written.2 char member
    | false =>
      have solid : piece.lexeme ≠ .space := by
        intro same
        rw [(Piece.lexeme_eq_space sound).1 same] at blank
        cases blank
      -- Any other lexeme ends where the next piece begins.
      have stop : ∀ char ∈ (Piece.concat pieces).toList.head?, piece.lexeme.endsAt char = true := by
        cases pieces with
        | nil =>
          intro char first
          cases first
        | cons next pieces =>
          rw [Piece.toList_concat_cons]
          exact Lexeme.endsAt_of_mayTouch (Piece.written legible.1) (apart next rfl) fun same =>
            absurd same solid
      have whole : ∀ position, (⟨(Piece.concat (piece :: pieces)).toList, position, []⟩ :
          Lexer).Shows (shown (piece :: pieces)) none := by
        intro position
        obtain ⟨kind, found, same⟩ := Lexeme.readLexeme_of_written written stop
        rw [shown_solid blank, Piece.toList_concat_cons,
          ← same ⟨position, position + byteLength piece.text.toList⟩]
        exact .of_readLexeme found rfl _ rfl rfl (alone _)
      refine ⟨whole, ?_⟩
      intro blanks position before
      -- The white space before it has ended there as well.
      have apart : ∀ char ∈ (Piece.concat (piece :: pieces)).toList.head?,
          Lexeme.space.endsAt char = true := by
        rw [Piece.toList_concat_cons]
        exact Lexeme.endsAt_of_mayTouch written rfl fun _ => solid
      obtain ⟨kind, found, same⟩ := Lexeme.readLexeme_of_written before apart
      rw [shown_solid blank, skip_cons solid, ← shown_solid blank,
        ← same ⟨position, position + byteLength blanks⟩]
      exact .of_readLexeme found rfl _ rfl rfl (whole _)

/-- Legible pieces are scanned as what they show. -/
theorem shows_concat (legible : Legible pieces) :
    (Lexer.ofText (Piece.concat pieces)).Shows (shown pieces) none :=
  (shows_of_legible legible).1 0

end Showing

end SelectSql
