import SelectSql.Proofs.Spelling.Closing
import SelectSql.Proofs.Splicing.Excerpts

/-!
Statements inside others. The text of a statement is read as the same statement between parentheses,
unless it ends with its first word: it keeps its own clauses and takes none of the outer ones.
-/

namespace SelectSql

variable {text name : String} {statement : Select} {slots : List Slot} {chars : List Char}
  {next : Option Lexeme}

/-- A statement between parentheses, named by a bare word. -/
def Select.embedded (statement : Select) (name : String) : Node :=
  .aliasBare (.parens (.select statement)) name

/-- Whether the last token of a text, white space aside, may end a statement with parentheses. -/
def EndsStatement (text : String) : Prop :=
  ∀ kind ∈ (kindsOf text).getLast?, kind ≠ .keyword .select ∧ kind ≠ .keyword .distinct

/-- What is embedded is a source if the statement is formed. -/
theorem Select.embedded_formed (formed : SelectFormed statement) (named : IsName name) :
    SourceFormed .source (statement.embedded name) :=
  .ofMember (.aliasBare (.parens (.ofMember (.ofBase (.select formed)))) named)

/-- Every look of a statement that was read passes before a closing parenthesis. -/
theorem Select.passes_embedded (read : parseSelect text = .ok statement)
    (ends : EndsStatement text) : Passes next (statement.embedded name).sourceSlots := by
  obtain ⟨_, lexemes, shown, covers⟩ := parseSelect_eq_ok.1 read
  have passes : Passes none statement.slots := by
    have whole := passes_of_fill covers
    simpa using whole
  -- The last token of the text is the last lexeme that the statement takes.
  have finished : Finished statement.slots := by
    have taken : strip lexemes = solids statement.slots := by
      simpa using strip_of_fill covers
    rw [EndsStatement, kindsOf_eq shown, taken, List.getLast?_map] at ends
    intro lexeme last
    obtain ⟨noSelect, noDistinct⟩ := ends _ (Option.mem_map_of_mem _ last)
    constructor
    · rintro rfl
      exact noSelect rfl
    · rintro rfl
      exact noDistinct rfl
  have inner : Passes (ahead next [.gap, .token (.ofText name)])
      (Node.parens (.select statement)).sourceSlots :=
    passes_parens (statement.passes_closed passes finished)
  exact passes_append.2 ⟨inner, trivial⟩

/-- A statement that was read is read as it is between parentheses. -/
theorem holds_embedded (read : parseSelect text = .ok statement) (named : IsName name)
    (stop : ∀ char ∈ chars.head?, char = ' ') (holds : Holds (.gap :: slots) chars) :
    Holds ((statement.embedded name).paddedSource ++ slots)
      ('(' :: (text.toList ++ ')' :: ' ' :: (name.toList ++ chars))) := by
  obtain ⟨_, lexemes, shown, covers⟩ := parseSelect_eq_ok.1 read
  have ends : ∀ char ∈ chars.head?, (Lexeme.name name).endsAt char = true := by
    intro char first
    rw [stop char first]
    rfl
  -- From the end: the name, the closing parenthesis, the text, and the opening parenthesis.
  have word : Holds (.token (.name name) :: .gap :: slots) (name.toList ++ chars) :=
    holds.token ⟨named, rfl⟩ (by simp) ends
  have closing : Holds (.mark .closeParen :: .gap :: .token (.name name) :: .gap :: slots)
      ([')'] ++ ' ' :: (name.toList ++ chars)) :=
    ((word.gap_token (by simp)).blank rfl).token rfl (by simp) (by simp; rfl)
  have heeds : ∀ slot ∈ Slot.gap :: statement.slots, slot.Heeds [.openParen, .dot, .comma] := by
    simpa using statement.heeds
  have seals : Seals ([')'] ++ ' ' :: (name.toList ++ chars)) := by simp [Seals]
  have inner := Holds.splice heeds (shows_iff_scans.1 shown) covers seals (by simp)
    (Holds.gap_gap.2 (closing.gap_token (by simp)))
  have whole := inner.openParen.gap_token (by simp)
  apply whole.congr
  simp [Node.paddedSource, padSource, Select.embedded, Node.sourceSlots, Node.memberEnd,
    named.ofText_eq]

/-- The statement of all columns of a source, under a condition and with no other clause. -/
def Select.allFrom (source condition : Node) : Select where
  distinct := false
  projections := some [.literal "*"]
  sources := some [source]
  filter := some condition
  groupBy := none
  orderBy := none
  limit := none
  offset := none

/-- A statement of all columns is formed if its source and its condition are. -/
theorem Select.allFrom_formed {source condition : Node} (given : SourceFormed .source source)
    (under : Formed .expression condition) : SelectFormed (allFrom source condition) := by
  have star : Formed .expression (.literal "*") :=
    .ofPredicate (.ofOperand (.ofSuffixed (.ofIndexed (.ofAtom (.literal (Or.inr (Or.inr rfl)))))))
  constructor <;> simp [allFrom, Projected.plain star, given, under]

/-- A statement of all columns is read from its source and its condition. -/
theorem holds_allFrom {source : Node} (condition : Excerpt)
    (holds : ∀ slots chars, Holds (.gap :: slots) (' ' :: chars) →
      Holds (source.paddedSource ++ slots) (text.toList ++ ' ' :: chars)) :
    Holds (.gap :: (Select.allFrom source condition.node).slots ++ [.gap])
      (Keyword.select.capitals.toList ++ ' ' :: '*' :: ' ' :: (Keyword.from_.capitals.toList ++
        ' ' :: (text.toList ++ ' ' :: (Keyword.where_.capitals.toList ++
          ' ' :: (condition.text.toList ++ []))))) := by
  -- From the end: the condition, the source, the star, and the first word.
  have filter := condition.holds_filter seals_nil (by simp [Detached]) (Holds.gap_gap.2 Holds.done)
  have given := ((holds _ _ filter).blank rfl).keyword .from_
  have star : Holds (.mark .star :: _) (['*'] ++ _) :=
    (Holds.gap_gap.2 given).token rfl (by simp) (by simp; rfl)
  have front := Holds.gap_gap.2 (Holds.gap_gap.2 (star.gap_token (by simp)))
  have whole := (front.blank rfl).word .select
  have text : Lexeme.ofText "*" = .mark .star := by decide
  apply whole.congr
  simp [Select.allFrom, Select.slots_eq, clauseSlots, projectionSlots, commaSlots, noComma,
    Node.projectionSlots, Node.projectionEnd, Node.padded, pad, Node.spelling, Node.paddedSource,
    padSource, text]

/--
A statement that was read is read as it is between parentheses, as a source by itself and in the
clause of another statement, and takes nothing of what follows.
-/
theorem parse_embedded {condition : Excerpt} (read : parseSelect text = .ok statement)
    (ends : EndsStatement text) (named : IsName name) :
    parseSource ("(" ++ text ++ ") " ++ name) = .ok (statement.embedded name) ∧
      parseStatement ("SELECT * FROM (" ++ text ++ ") " ++ name ++ " WHERE " ++ condition.text) =
        .ok (.allFrom (statement.embedded name) condition.node) := by
  have member := Select.embedded_formed (parseSelect_eq_ok.1 read).1 named
  constructor
  · -- By itself, the source stands before the end of input.
    have alone := holds_embedded read named (by simp) (Holds.gap_gap.2 Holds.done)
    apply parseSource_of_holds member _ alone
    · simp
    · exact passes_padSource (Select.passes_embedded read ends) (by simp)
  · -- In a clause, the word of the condition comes next.
    have formed := Select.allFrom_formed member condition.formed
    have passes : Passes none (Select.allFrom (statement.embedded name) condition.node).slots := by
      have told : (Select.allFrom (statement.embedded name) condition.node).Told := by
        constructor <;> simp [Select.allFrom, Node.unnamed, Node.leading]
      refine passes_select formed told ?_ (by simp)
      rintro _ ⟨⟩
      simp only [List.mem_singleton, forall_eq]
      intro next closes
      exact passes_padSource (Select.passes_embedded read ends) closes
    have source : ∀ slots chars, Holds (.gap :: slots) (' ' :: chars) →
        Holds ((statement.embedded name).paddedSource ++ slots)
          (("(" ++ text ++ ") " ++ name).toList ++ ' ' :: chars) := by
      intro slots chars holds
      have held := holds_embedded read named (by simp) holds
      simpa using held
    have whole := holds_allFrom condition source
    have words : "SELECT * FROM (".toList = Keyword.select.capitals.toList ++ ' ' :: '*' :: ' ' ::
        (Keyword.from_.capitals.toList ++ ' ' :: "(".toList) ∧
        " WHERE ".toList = ' ' :: (Keyword.where_.capitals.toList ++ [' ']) := by decide +kernel
    apply parseStatement_of_holds formed passes whole
    simp [words]

/-- A statement that ends with another one and a limit keeps both. -/
theorem parse_embedded_limit : ∃ (statement : Select) (condition : Excerpt),
    parseSelect "select a from b join c, select * from d limit 1" = .ok statement ∧
      condition.text = "q.a=1" ∧
      parseStatement
          "SELECT * FROM (select a from b join c, select * from d limit 1) q WHERE q.a=1" =
        .ok (.allFrom (statement.embedded "q") condition.node) := by
  have accepted : (parseSelect "select a from b join c, select * from d limit 1").isOk = true ∧
      (parseExpression "q.a=1").isOk = true := by decide +kernel
  obtain ⟨statement, read⟩ := exists_ok_of_isOk accepted.1
  obtain ⟨node, under⟩ := exists_ok_of_isOk accepted.2
  have ends : EndsStatement "select a from b join c, select * from d limit 1" := by
    unfold EndsStatement
    decide +kernel
  have named : IsName "q" := by decide +kernel
  have whole := (@parse_embedded _ _ _ ⟨_, node, under⟩ read ends named).2
  have text : "SELECT * FROM (select a from b join c, select * from d limit 1) q WHERE q.a=1" =
      "SELECT * FROM (" ++ "select a from b join c, select * from d limit 1" ++ ") " ++ "q" ++
        " WHERE " ++ "q.a=1" := by decide +kernel
  refine ⟨statement, ⟨_, node, under⟩, read, rfl, ?_⟩
  rw [text]
  exact whole

end SelectSql
