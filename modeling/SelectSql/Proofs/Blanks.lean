import SelectSql.Proofs.Lexical.Split
import SelectSql.Proofs.Reading.Entry
import SelectSql.Proofs.Spelling.Commas

/-!
White space before a comma. It may be put there without changing what a statement is read as, unless
the comma follows the name of a projection.
-/

namespace SelectSql

variable {text : String} {statement : Select} {before after : List Token} {token : Token}
  {slots : List Slot} {lexemes rest : List Lexeme} {marks : List Mark}

/-- Runs of white space do not matter to what covers slots. -/
theorem covers_squeeze (heeds : ∀ slot ∈ slots, slot.Heeds marks) :
    Covers slots (squeeze lexemes) ↔ Covers slots lexemes := by
  have heeds : ∀ slot ∈ slots ++ [.gap], slot.Heeds marks :=
    List.forall_mem_append.2 ⟨heeds, by simp⟩
  -- Squeezing leaves a lexeme wherever there was one.
  have none : ∀ lexemes, squeeze lexemes = [] ↔ lexemes = [] := by
    intro lexemes
    rw [← List.head?_eq_none_iff, head?_squeeze, List.head?_eq_none_iff]
  simp [Covers, fill_squeeze heeds, none]

/-- What is read as a comma begins with one. -/
theorem seals_of_comma {chars : List Char} (scans : Scans chars (.mark .comma :: rest) []) :
    Seals chars := by
  generalize same : Lexeme.mark .comma :: rest = lexemes at scans
  cases scans with
  | done => cases same
  | @token _ taken left _ kind _ found _ =>
    obtain ⟨admitted, _⟩ := admits_of_readLexeme found
    have comma := (List.cons.inj same).1
    have other : kind ≠ .space := by
      intro space
      rw [(TokenKind.lexeme_eq_space admitted).2 space] at comma
      cases comma
    -- The token says what its lexeme does, so the text that it was taken from is a comma.
    have word : (kind.lexeme taken).word = (kind, kind.textOf taken) :=
      (Token.lexeme_of_admits ⟨0, 0⟩ admitted).2.2.2 other
    rw [← comma] at word
    obtain ⟨rfl, text⟩ := Prod.mk.inj word
    have spelled : taken = [','] := by
      rw [← String.toList_ofList (l := taken), show String.ofList taken = "," from text.symm]
      rfl
    rw [← append_of_readLexeme found, spelled]
    simp [Seals]

/-- A text that splits into lexemes is read as a statement exactly if they spell it. -/
theorem parseStatement_iff_covers (formed : SelectFormed statement)
    (scans : Scans text.toList (squeeze lexemes) []) :
    parseStatement text = .ok statement ↔ Covers (.gap :: statement.slots) lexemes := by
  have heeds : ∀ slot ∈ Slot.gap :: statement.slots, slot.Heeds [.openParen, .dot, .comma] := by
    simpa using statement.heeds
  have shown : (Lexer.ofText text).Shows (squeeze lexemes) none := shows_iff_scans.2 scans
  rw [← covers_squeeze heeds, parseStatement_eq_ok]
  constructor
  · -- A text splits in one way only, so these are the lexemes that were read.
    rintro ⟨_, others, again, covers⟩
    obtain ⟨rfl, _⟩ := again.unique shown
    exact covers
  · intro covers
    exact ⟨formed, _, shown, covers⟩

/--
White space before a comma of a statement leaves what it is read as, exactly if the comma does not
follow the name of a projection.
-/
theorem parseStatement_insert (read : parseStatement text = .ok statement)
    (split : tokenize text = .ok (before ++ token :: after))
    (comma : token.isMark .comma = true) :
    ∃ first rest named, text.toList = first ++ rest ∧ token.position = byteLength first ∧
      statement.commas[before.countP (·.isMark .comma)]? = some named ∧
      ∀ blank, isBlank blank = true →
        (parseStatement (String.ofList (first ++ blank :: rest)) = .ok statement ↔
          named = false) := by
  have formed := (parseStatement_eq_ok.1 read).1
  have lexeme : token.lexeme = .mark .comma := by simpa [Token.isMark_eq] using comma
  have real : token.isEof = false := by
    rw [← Bool.not_eq_true]
    intro ending
    rw [Token.lexeme_of_isEof ending] at lexeme
    cases lexeme
  -- The text is cut in front of the comma, and it is the slots there that decide.
  obtain ⟨first, rest, whole, place, ahead, lexemes, behind⟩ := scans_of_cut split real
  rw [lexeme] at behind
  have scans := ahead.append behind (seals_of_comma behind)
  rw [← whole] at scans
  have covers := (parseStatement_iff_covers formed scans).1 read
  have heeds : ∀ slot ∈ Slot.gap :: statement.slots ++ [.gap],
      slot.Heeds [.openParen, .dot, .comma] := by
    simpa [or_imp, forall_and] using statement.heeds
  obtain ⟨named, place', moves⟩ := fill_insert heeds covers fun _ => rfl
  refine ⟨first, rest, named, whole, place, ?_, ?_⟩
  · have flags : tightCommas true (.gap :: statement.slots ++ [.gap]) = statement.commas := by
      simp [tightCommas, tightCommas_append, Select.tightCommas_slots]
    have count : (before.map Token.lexeme).count (.mark .comma) =
        before.countP (·.isMark .comma) := by
      simp [List.count, List.countP_map, Function.comp_def, Token.isMark_eq]
    rw [← flags, ← count, place']
  · intro blank white
    -- The new text splits as the old one does, with white space before the comma.
    have seals : Seals (blank :: rest) := by simp [Seals, white]
    have inserted := @Scans.blanks _ [blank] _ (by simp) (by simpa using white) behind
    have moved := ahead.append inserted seals
    rw [squeeze_append_squeeze] at moved
    rw [parseStatement_iff_covers formed (by simpa using moved)]
    exact moves

/-- A result that is no error is the value in it. -/
private theorem eq_ok_of_toOption {ε α : Type} {result : Except ε α} {value : α}
    (given : result.toOption = some value) : result = .ok value := by
  cases result with
  | error error => cases given
  | ok other => exact congrArg Except.ok (Option.some.inj given)

/-- The tokens of a statement with a named projection. -/
private theorem tokenize_named : (tokenize "select a as x,b").toOption = some ([
    ⟨.keyword .select, "select", ⟨0, 6⟩⟩, ⟨.space, " ", ⟨6, 7⟩⟩, ⟨.identifier, "a", ⟨7, 8⟩⟩,
    ⟨.space, " ", ⟨8, 9⟩⟩, ⟨.keyword .as, "as", ⟨9, 11⟩⟩, ⟨.space, " ", ⟨11, 12⟩⟩,
    ⟨.identifier, "x", ⟨12, 13⟩⟩] ++
    ⟨.mark, ",", ⟨13, 14⟩⟩ :: [⟨.identifier, "b", ⟨14, 15⟩⟩, .eof 15]) := by
  decide +kernel

/-- The comma of that statement follows a name. -/
private theorem commas_named :
    (parseStatement "select a as x,b").toOption.map Select.commas = some [true] := by
  decide +kernel

/-- White space before the comma after a name is refused, or changes what is read. -/
theorem parseStatement_insert_named : ∃ statement,
    parseStatement "select a as x,b" = .ok statement ∧
      parseStatement "select a as x ,b" ≠ .ok statement := by
  obtain ⟨statement, given, flags⟩ := Option.map_eq_some_iff.1 commas_named
  have read := eq_ok_of_toOption given
  obtain ⟨first, rest, named, whole, place, flag, moves⟩ :=
    parseStatement_insert read (eq_ok_of_toOption tokenize_named) (by decide)
  refine ⟨statement, read, ?_⟩
  rw [flags] at flag
  obtain rfl : true = named := Option.some.inj flag
  have cut : first = "select a as x".toList ∧ rest = ",b".toList := by
    apply eq_of_byteLength_eq
    · rw [← whole]
      decide +kernel
    · rw [← place]
      decide +kernel
  have text : String.ofList (first ++ ' ' :: rest) = "select a as x ,b" := by
    rw [cut.1, cut.2]
    decide +kernel
  rw [← text, Ne, moves ' ' rfl]
  nofun

end SelectSql
