import SelectSql.Layout.WriterLaws
import SelectSql.Proofs.Printing.Statement
import SelectSql.Proofs.Reading.Entry
import SelectSql.Proofs.Spelling.Ahead
import SelectSql.Syntax.Equality

/-!
Reading what was printed. A tree that was read from some text is read again from its printed form,
and the two texts have the same words in the same order.
-/

namespace SelectSql

variable {α : Type} {slots : List Slot} {pieces : List Piece} {lexemes : List Lexeme}

/-- What is printed shows the lexemes that were read, in white space of its own that suits them. -/
theorem covers_of_fits (covers : Covers slots lexemes) (fits : Fits (slots ++ [.gap]) pieces) :
    Covers slots (shown pieces) ∧ strip (shown pieces) = strip lexemes := by
  -- What must not follow a part did not follow it in the text that was read.
  have filled : Covers slots (shown pieces) := fill_of_plain covers fits.filled rfl
  refine ⟨filled, ?_⟩
  rw [strip_of_fill filled, strip_of_fill covers]

/-- A spelling that begins with a gap is printed whole. -/
theorem Prints.whole (leads : ∃ more, slots = .gap :: more) (prints : Prints slots pieces) :
    Fits (slots ++ [.gap]) pieces := by
  obtain ⟨more, rfl⟩ := leads
  -- Nothing is printed after the whole, and white space may be left at its end.
  have printed := prints [.gap] [] nofun Fits.done.gap_gap
  rw [List.append_nil] at printed
  exact printed.of_gap_gap

section Entries

variable {statement : Select} {node : Node} (options : FormatOptions)

/-- A statement is printed as the whole text that it is. -/
theorem SelectFormed.fits (formed : SelectFormed statement) :
    Fits ((.gap :: statement.slots) ++ [.gap]) (statement.pieces options.projections .top) := by
  -- The statement is printed at the top, with nothing around it.
  have printed := formed.prints options.projections .top [] [] nofun Fits.done
  rw [List.append_nil, List.append_nil] at printed
  exact printed

/-- A source is printed as the whole text that it is. -/
theorem SourceFormed.fits (formed : SourceFormed .source node) :
    Fits (node.paddedSource ++ [.gap]) (node.pieces options.projections .top) :=
  (formed.prints options.projections .top).source.whole ⟨_, rfl⟩

/-- An expression is printed as the whole text that it is. -/
theorem Formed.fits (formed : Formed .expression node) :
    Fits (node.padded .expression ++ [.gap]) (node.pieces options.projections .top) :=
  ((formed.prints options.projections .top).pad .expression node).whole ⟨_, rfl⟩

end Entries

section Rereading

variable {parse : String → Except ParseError α} {print : α → String}

/-- A printed tree is read as itself, from the lexemes of the text it was first read from. -/
def Rereads (parse : String → Except ParseError α) (print : α → String) : Prop :=
  ∀ text tree, parse text = .ok tree → parse (print tree) = .ok tree ∧
    ∃ lexemes printed, (Lexer.ofText text).Shows lexemes none ∧
      (Lexer.ofText (print tree)).Shows printed none ∧ strip printed = strip lexemes

/-- An entry that accepts what the slots of its trees allow rereads what fits these slots. -/
theorem rereads_of_fits {good : α → Prop} {spell : α → List Slot} {pieces : α → List Piece}
    (accepts : ∀ text tree, parse text = .ok tree ↔ good tree ∧
      ∃ lexemes, (Lexer.ofText text).Shows lexemes none ∧ Covers (spell tree) lexemes)
    (fits : ∀ tree, good tree → Fits (spell tree ++ [.gap]) (pieces tree))
    (prints : ∀ tree, print tree = Piece.concat (pieces tree)) : Rereads parse print := by
  intro text tree read
  -- What was read covers the spelling of the tree.
  obtain ⟨formed, lexemes, scanned, covers⟩ := (accepts text tree).1 read
  -- What is printed of the tree is scanned as what its pieces show.
  have printed := shows_concat (fits tree formed).legible
  rw [← prints tree] at printed
  obtain ⟨again, alike⟩ := covers_of_fits covers (fits tree formed)
  -- It covers the same spelling, so it is read as the same tree.
  exact ⟨(accepts _ tree).2 ⟨formed, _, printed, again⟩, lexemes, _, scanned, printed, alike⟩

/-- Every entry rereads what is printed of its trees. -/
theorem format_rereads (options : FormatOptions) :
    Rereads parseStatement (Select.format options) ∧
      Rereads parseSelect (Select.format options) ∧
      Rereads parseSource (Node.format options) ∧
      Rereads parseExpression (Node.format options) := by
  -- The entries differ in the slots of their trees only.
  refine ⟨?_, ?_, ?_, ?_⟩
  · exact rereads_of_fits (fun _ _ => parseStatement_eq_ok) (fun _ formed => formed.fits options)
      (Select.format_eq options)
  · exact rereads_of_fits (fun _ _ => parseSelect_eq_ok) (fun _ formed => formed.fits options)
      (Select.format_eq options)
  · exact rereads_of_fits (fun _ _ => parseSource_eq_ok) (fun _ formed => formed.fits options)
      (Node.format_eq options)
  · exact rereads_of_fits (fun _ _ => parseExpression_eq_ok) (fun _ formed => formed.fits options)
      (Node.format_eq options)

end Rereading

section Trees

variable {parse : String → Except ParseError α} {print : α → String}

/-- A printed tree is read as itself, and so its text is printed again as it stands. -/
def ReadsBack (parse : String → Except ParseError α) (print : α → String) : Prop :=
  ∀ text tree, parse text = .ok tree → parse (print tree) = .ok tree ∧
    ∀ again, parse (print tree) = .ok again → print again = print tree

/-- What is reread is printed again as it stands. -/
theorem Rereads.readsBack (rereads : Rereads parse print) : ReadsBack parse print := by
  intro text tree read
  have same := (rereads text tree read).1
  refine ⟨same, ?_⟩
  -- Reading has one result, so the tree that is printed again is the same.
  intro again found
  rw [same] at found
  rw [Except.ok.inj found]

/-- Whatever was read is read again from its printed form, in every layout and by every entry. -/
theorem format_readsBack (options : FormatOptions) :
    ReadsBack parseStatement (Select.format options) ∧
      ReadsBack parseSelect (Select.format options) ∧
      ReadsBack parseSource (Node.format options) ∧
      ReadsBack parseExpression (Node.format options) := by
  obtain ⟨statements, selects, sources, expressions⟩ := format_rereads options
  exact ⟨statements.readsBack, selects.readsBack, sources.readsBack, expressions.readsBack⟩

/-- A statement inside another and a wrapped projection are read again. -/
theorem format_readsBack_nested : ∃ statement,
    parseStatement "select a as x,not b from(select*)q join u on 1 is 2" = .ok statement ∧
      parseStatement (statement.format ⟨.wrap⟩) = .ok statement := by
  have accepted : (parseStatement
      "select a as x,not b from(select*)q join u on 1 is 2").isOk = true := by decide +kernel
  obtain ⟨statement, read⟩ := exists_ok_of_isOk accepted
  exact ⟨statement, read, ((format_readsBack ⟨.wrap⟩).1 _ statement read).1⟩

end Trees

section Words

variable {parse : String → Except ParseError α} {print : α → String}

/-- A printed tree has the tokens of the text it was read from, white space and places aside. -/
def KeepsWords (parse : String → Except ParseError α) (print : α → String) : Prop :=
  ∀ text tree, parse text = .ok tree → ∃ tokens printed, tokenize text = .ok tokens ∧
    tokenize (print tree) = .ok printed ∧ wordsOf printed = wordsOf tokens

/-- Texts that show the same lexemes split into the same words. -/
theorem Rereads.keepsWords (rereads : Rereads parse print) : KeepsWords parse print := by
  intro text tree read
  obtain ⟨_, lexemes, others, scanned, again, alike⟩ := rereads text tree read
  -- Both texts split, since their lexers come to the end without a fault.
  obtain ⟨tokens, split, _, words⟩ := tokenize_of_shows scanned
  obtain ⟨printed, splitAgain, _, wordsAgain⟩ := tokenize_of_shows again
  refine ⟨tokens, printed, split, splitAgain, ?_⟩
  -- The words of the tokens are those of the lexemes, white space left out.
  rw [words, wordsAgain, alike]

/-- Printing loses, adds, moves and respells no token, in every layout and for every entry. -/
theorem format_keepsWords (options : FormatOptions) :
    KeepsWords parseStatement (Select.format options) ∧
      KeepsWords parseSelect (Select.format options) ∧
      KeepsWords parseSource (Node.format options) ∧
      KeepsWords parseExpression (Node.format options) := by
  obtain ⟨statements, selects, sources, expressions⟩ := format_rereads options
  exact ⟨statements.keepsWords, selects.keepsWords, sources.keepsWords, expressions.keepsWords⟩

/-- Signs in a row, a point, a conversion and a quoted name keep their tokens. -/
theorem format_keepsWords_signs : ∃ node tokens printed,
    parseExpression "- -t.*+\x22as\x22::x<>1" = .ok node ∧
      tokenize "- -t.*+\x22as\x22::x<>1" = .ok tokens ∧
      tokenize (node.format ⟨.inline⟩) = .ok printed ∧ wordsOf printed = wordsOf tokens := by
  have accepted : (parseExpression "- -t.*+\x22as\x22::x<>1").isOk = true := by decide +kernel
  obtain ⟨node, read⟩ := exists_ok_of_isOk accepted
  obtain ⟨tokens, printed, split, again, same⟩ := (format_keepsWords ⟨.inline⟩).2.2.2 _ node read
  exact ⟨node, tokens, printed, read, split, again, same⟩

end Words

end SelectSql
