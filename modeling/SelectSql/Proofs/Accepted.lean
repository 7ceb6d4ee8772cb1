import SelectSql.Proofs.RoundTrip
import SelectSql.Proofs.Spelling.Settled

/-!
Which texts are accepted, and as what. Every tree that is read has the shape that the grammar gives,
and every expression of that shape is read from each text of its words that is well spaced.
-/

namespace SelectSql

variable {node : Node} {lexemes : List Lexeme} {text : String}

/-- Every tree that is read has the shape of the entry that read it. -/
theorem parse_formed (text : String) :
    (∀ node, parseExpression text = .ok node → Formed .expression node) ∧
      (∀ node, parseSource text = .ok node → SourceFormed .source node) ∧
      (∀ statement, parseStatement text = .ok statement → SelectFormed statement) ∧
      (∀ statement, parseSelect text = .ok statement → SelectFormed statement) := by
  -- A text is read as a tree only if the tree has the shape that the entry asks for.
  refine ⟨?_, ?_, ?_, ?_⟩
  · intro node read
    exact (parseExpression_eq_ok.1 read).1
  · intro node read
    exact (parseSource_eq_ok.1 read).1
  · intro statement read
    exact (parseStatement_eq_ok.1 read).1
  · intro statement read
    exact (parseSelect_eq_ok.1 read).1

/-- A choice inside a join condition inside a statement has its shape. -/
theorem parse_formed_join : ∃ node,
    parseSource "a join(b x)on case when c then- 1 end in(1,2)" = .ok node ∧
      SourceFormed .source node := by
  have accepted : (parseSource
      "a join(b x)on case when c then- 1 end in(1,2)").isOk = true := by decide +kernel
  obtain ⟨node, read⟩ := exists_ok_of_isOk accepted
  exact ⟨node, read, (parse_formed _).2.1 node read⟩

/-- The lexemes of an expression cover its spelling exactly if they are well spaced. -/
theorem Formed.covers_iff (formed : Formed .expression node)
    (same : strip lexemes = solids (node.padded .expression)) :
    (Covers (node.padded .expression) lexemes ↔ WellSpaced lexemes) ∧
      (fill (plain (node.padded .expression ++ [.gap])) lexemes = some [] →
        WellSpaced lexemes) := by
  -- Nothing follows the expression, so every look ahead of its spelling passes.
  have sure : Sure (node.padded .expression ++ [.gap]) :=
    formed.settles.pad node nofun Sure.done.gap_gap
  have whole : strip lexemes = solids (node.padded .expression ++ [.gap]) := by
    rw [solids_append, same]
    exact (List.append_nil _).symm
  obtain ⟨fills, spaced⟩ := sure lexemes whole
  refine ⟨⟨?_, fills⟩, spaced⟩
  -- What fills the slots fills them with the looks ahead left out.
  intro covers
  exact spaced (fill_plain covers)

/-- The printed form of an expression is well spaced. -/
theorem Formed.wellSpaced (formed : Formed .expression node) (options : FormatOptions) :
    strip (shown (node.pieces options.projections .top)) = solids (node.padded .expression) ∧
      WellSpaced (shown (node.pieces options.projections .top)) := by
  have fits := formed.fits options
  -- The lexemes of the printed form fill the slots, so they are those that the slots call for.
  have same : strip (shown (node.pieces options.projections .top)) =
      solids (node.padded .expression) := by
    have taken := strip_of_fill fits.filled
    have gap : solids [.gap] = [] := rfl
    rw [solids_plain, solids_append, gap, strip_nil, List.append_nil, List.append_nil] at taken
    exact taken
  -- Printed pieces fill the slots with the looks left out, which is enough to be well spaced.
  exact ⟨same, (formed.covers_iff same).2 fits.filled⟩

/-- Lexemes with the same words are the same. -/
private theorem strip_eq_of_words {others : List Lexeme}
    (same : (strip lexemes).map Lexeme.word ++ [(TokenKind.eof, "")] =
      (strip others).map Lexeme.word ++ [(.eof, "")]) : strip lexemes = strip others := by
  -- Both rows end with the end of input, and a lexeme is known by its word.
  have words := List.append_cancel_right same
  exact (List.map_inj_right fun _ _ alike => Lexeme.word_injective alike).1 words

/-- A text with the words of an expression is read as that exactly if it is well spaced. -/
private theorem parseExpression_iff_wellSpaced (formed : Formed .expression node)
    {tokens : List Token} (split : tokenize text = .ok tokens) (options : FormatOptions)
    (same : wordsOf tokens = (strip (shown (node.pieces options.projections .top))).map Lexeme.word
      ++ [(.eof, "")]) :
    parseExpression text = .ok node ↔ WellSpaced (tokens.map Token.lexeme) := by
  -- The tokens of the text show the lexemes that the reading speaks of.
  obtain ⟨lexemes, scanned, _, shape, words⟩ := shows_of_tokenize split
  rw [words] at same
  have alike := strip_eq_of_words same
  rw [(formed.wellSpaced options).1] at alike
  rw [shape, wellSpaced_append_foreign, ← (formed.covers_iff alike).1, parseExpression_eq_ok]
  -- The text has one row of lexemes, which covers the spelling exactly if it is well spaced.
  constructor
  · rintro ⟨_, others, shown, covers⟩
    obtain ⟨rfl, _⟩ := shown.unique scanned
    exact covers
  · intro covers
    exact ⟨formed, lexemes, scanned, covers⟩

/-- The printed form of an expression splits into the words of its spelling, and is well spaced. -/
private theorem exists_printed (formed : Formed .expression node) (options : FormatOptions) :
    ∃ printed, tokenize (node.format options) = .ok printed ∧
      wordsOf printed = (strip (shown (node.pieces options.projections .top))).map Lexeme.word
        ++ [(.eof, "")] ∧
      WellSpaced (printed.map Token.lexeme) := by
  rw [Node.format_eq]
  -- The printed form is legible, so it splits into what its pieces show.
  have scanned := shows_concat (formed.fits options).legible
  obtain ⟨printed, split, shape, words⟩ := tokenize_of_shows scanned
  refine ⟨printed, split, words, ?_⟩
  rw [shape, wellSpaced_append_foreign]
  exact (formed.wellSpaced options).2

/--
An expression is read from exactly the well spaced texts of its words, of which the printed form is
one; and no other expression has these words.
-/
theorem expression_read_iff (formed : Formed .expression node) (options : FormatOptions) :
    ∃ printed, tokenize (node.format options) = .ok printed ∧
      WellSpaced (printed.map Token.lexeme) ∧
      (∀ text tokens, tokenize text = .ok tokens → wordsOf tokens = wordsOf printed →
        (parseExpression text = .ok node ↔ WellSpaced (tokens.map Token.lexeme))) ∧
      (∀ other choices tokens, Formed .expression other →
        tokenize (other.format choices) = .ok tokens → wordsOf tokens = wordsOf printed →
        other = node) := by
  obtain ⟨printed, split, words, spaced⟩ := exists_printed formed options
  refine ⟨printed, split, spaced, ?_, ?_⟩
  · -- A text of the same words is read as the tree by the way its words are spaced.
    intro text tokens text_split same
    rw [words] at same
    exact parseExpression_iff_wellSpaced formed text_split options same
  · intro other choices tokens formed' split' same
    obtain ⟨printed', again, words', spaced'⟩ := exists_printed formed' choices
    rw [again] at split'
    obtain rfl := Except.ok.inj split'
    -- The printed form of the other expression is read as both.
    have one := (parseExpression_iff_wellSpaced formed' again choices words').2 spaced'
    have two := (parseExpression_iff_wellSpaced formed again options (same.trans words)).2 spaced'
    rw [one] at two
    exact Except.ok.inj two

/-- A negated range is read from its printed form. -/
theorem expression_read_iff_between :
    parseExpression "1 NOT BETWEEN 2 AND 3" =
      .ok (.binary (.literal "1") .between (.range (.literal "2") (.literal "3")) true) := by
  have digit : ∀ char : Char, char.isDigit = true → IsLiteral (String.ofList [char]) := by
    intro char isDigit
    rw [IsLiteral, String.toList_ofList]
    exact Or.inl ⟨[char], by simp, by simpa using isDigit, Or.inl rfl⟩
  have operand : ∀ text, IsLiteral text → Formed .operand (.literal text) := fun text literal =>
    .ofSuffixed (.ofIndexed (.ofAtom (.literal (Or.inl literal))))
  have formed : Formed .expression
      (.binary (.literal "1") .between (.range (.literal "2") (.literal "3")) true) :=
    .ofPredicate (.between (operand "1" (digit '1' rfl)) (operand "2" (digit '2' rfl))
      (operand "3" (digit '3' rfl)))
  obtain ⟨printed, split, spaced, reads, _⟩ := expression_read_iff formed ⟨.inline⟩
  have text : Node.format ⟨.inline⟩
      (.binary (.literal "1") .between (.range (.literal "2") (.literal "3")) true) =
        "1 NOT BETWEEN 2 AND 3" := by
    rw [Node.format_eq]
    decide +kernel
  rw [← text]
  exact (reads _ printed split rfl).2 spaced

end SelectSql
