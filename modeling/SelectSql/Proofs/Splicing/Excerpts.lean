import SelectSql.Proofs.Spelling.Passing
import SelectSql.Proofs.Splicing.Holds

/-!
Texts of expressions in the clauses of a statement. Each text that is read as an expression by
itself is read as the same expression between a comma, a name or the word of a clause.
-/

namespace SelectSql

variable {slots : List Slot} {chars : List Char} {text : String}

/-- The categories of the tokens of a text, without white space and the end of input. -/
def kindsOf (text : String) : List TokenKind :=
  match tokenize text with
  | .ok tokens => (wordsOf tokens).dropLast.map Prod.fst
  | .error _ => []

/-- A text that shows lexemes has their categories. -/
theorem kindsOf_eq {lexemes : List Lexeme} (shown : (Lexer.ofText text).Shows lexemes none) :
    kindsOf text = (strip lexemes).map fun lexeme => lexeme.word.1 := by
  obtain ⟨tokens, split, _, words⟩ := tokenize_of_shows shown
  rw [kindsOf, split]
  simp [words]

/-- A text with the expression that is read from it. -/
structure Excerpt where
  /-- The text. -/
  text : String
  /-- The expression. -/
  node : Node
  /-- The text is accepted by itself. -/
  read : parseExpression text = .ok node

/-- An excerpt to be projected, under a name or not. -/
structure Column extends Excerpt where
  /-- The name, if there is one. -/
  name : Option String
  /-- The name is one that can be written. -/
  named : ∀ word ∈ name, IsName word

namespace Column

/-- The text of a column, with the name after `AS`. -/
def written (column : Column) : String :=
  match column.name with
  | none => column.text
  | some name => column.text ++ " AS " ++ name

/-- The projection that a column is read as. -/
def projection (column : Column) : Node :=
  match column.name with
  | none => column.node
  | some name => .aliasAs column.node name

end Column

/-- Whether what slots take first is none of the marks that an expression before them heeds. -/
def Detached (slots : List Slot) : Prop :=
  -- A parenthesis would make a call of a name, and a point would ask for a member of it.
  ∀ sign ∈ [Mark.openParen, .dot], ahead none slots ≠ some (.mark sign)

namespace Excerpt

variable (excerpt : Excerpt)

/-- An excerpt that is projected without a name. -/
def bare : Column :=
  ⟨excerpt, none, by simp⟩

/-- An excerpt that is projected under a name. -/
def under {name : String} (named : IsName name) : Column :=
  ⟨excerpt, some name, by simpa using named⟩

/-- What is read is an expression. -/
theorem formed : Formed .expression excerpt.node :=
  (parseExpression_eq_ok.1 excerpt.read).1

/-- An excerpt is read as it is by itself before what seals it. -/
theorem holds (seals : Seals chars)
    (apart : Detached slots)
    (holds : Holds (.gap :: slots) chars) :
    Holds (excerpt.node.padded .expression ++ slots) (excerpt.text.toList ++ chars) := by
  obtain ⟨_, lexemes, shown, covers⟩ := parseExpression_eq_ok.1 excerpt.read
  -- The gap and the look at the end are left to what comes after the text.
  have inner : Covers (.gap :: excerpt.node.spelling) lexemes := by
    obtain ⟨rest, padded, left⟩ := fill_append_eq_some.1 covers
    obtain ⟨after, filled, rfl, _⟩ := fill_pad_eq_some.1 padded
    rw [fill_gap, skip_skip] at left
    exact (fill_append_of filled).trans left
  -- A spelling heeds two marks at most, and what follows begins with neither.
  have heeds : ∀ slot ∈ Slot.gap :: excerpt.node.spelling, slot.Heeds [.openParen, .dot] := by
    simpa using excerpt.node.heeds
  have held := Holds.splice heeds (shows_iff_scans.1 shown) inner seals apart holds
  apply held.congr
  simp [Node.padded, pad]

end Excerpt

section Clauses

/-- The end of the text seals. -/
theorem seals_nil : Seals [] := by
  simp [Seals]

/-- A blank seals. -/
theorem seals_blank : Seals (' ' :: chars) := by
  intro char first
  exact Or.inl (by rw [← Option.some.inj first]; rfl)

/-- A comma seals. -/
theorem seals_comma : Seals (',' :: chars) := by
  simp [Seals]

/-- Excerpts are read in a list, one by one. -/
theorem holds_excerpts {excerpts : List Excerpt} {each : Excerpt → List Slot}
    (nonempty : excerpts ≠ [])
    (shape : ∀ excerpt, ∃ looks, each excerpt = excerpt.node.padded .expression ++ looks ∧
      plain looks = [])
    (seals : Seals chars)
    (apart : Detached slots)
    (holds : Holds (.gap :: slots) chars) :
    Holds (commaSlots noComma (excerpts.map each) ++ slots)
      (List.intercalate [',', ' '] (excerpts.map fun excerpt => excerpt.text.toList) ++ chars) := by
  apply Holds.commaList nonempty
  · intro excerpt _
    obtain ⟨looks, same, _⟩ := shape excerpt
    exact ⟨_, same⟩
  · -- Each text is followed by a comma, which seals it.
    intro excerpt _ slots chars holds
    obtain ⟨looks, same, clear⟩ := shape excerpt
    have held := excerpt.holds seals_comma (by simp [Detached]) (holds.gap_token (by simp))
    exact held.congr (by simp [same, clear])
  · intro excerpt _
    obtain ⟨looks, same, clear⟩ := shape excerpt
    have ending : plain noComma = [] := rfl
    exact (excerpt.holds seals apart holds).congr (by simp [same, clear, ending])

/-- Excerpts are read in the clause of a word and `BY`. -/
theorem holds_byExcerpts (word : Keyword) {excerpts : List Excerpt} {each : Excerpt → List Slot}
    (nonempty : excerpts ≠ [])
    (shape : ∀ excerpt, ∃ looks, each excerpt = excerpt.node.padded .expression ++ looks ∧
      plain looks = [])
    (seals : Seals chars)
    (apart : Detached slots)
    (holds : Holds (.gap :: slots) chars) :
    Holds (.gap :: (clauseSlots word (some (byListSlots (excerpts.map each))) ++ slots))
      (' ' :: (word.capitals.toList ++ ' ' :: (Keyword.by_.capitals.toList ++ ' ' ::
        (List.intercalate [',', ' '] (excerpts.map fun excerpt => excerpt.text.toList) ++
          chars)))) := by
  have listed := holds_excerpts nonempty shape seals apart holds
  have leads : ∃ more, commaSlots noComma (excerpts.map each) = .gap :: more := by
    apply leads_commaSlots (by simpa using nonempty)
    rw [List.forall_mem_map]
    intro excerpt _
    obtain ⟨looks, same, _⟩ := shape excerpt
    exact ⟨_, same⟩
  obtain ⟨more, begins⟩ := leads
  -- The list begins with a gap, which takes the blank after `BY`.
  rw [begins] at listed
  have whole := ((listed.blank rfl).keyword .by_).keyword word
  simpa [clauseSlots, byListSlots, begins] using whole

/-- A named excerpt is read before a blank and before a comma. -/
private theorem holds_named (excerpt : Excerpt) {name : String} (named : IsName name)
    (stop : ∀ char ∈ chars.head?, char = ' ' ∨ char = ',') (holds : Holds slots chars) :
    Holds ((Node.aliasAs excerpt.node name).projectionSlots ++ slots)
      ((excerpt.text ++ " AS " ++ name).toList ++ chars) := by
  have ends : ∀ char ∈ chars.head?, (Lexeme.name name).endsAt char = true := by
    intro char first
    rcases stop char first with rfl | rfl <;> rfl
  -- The name is put in front of what follows, and then `AS` and the text in front of that.
  have last : Holds (.token (.name name) :: slots) (name.toList ++ chars) :=
    holds.token ⟨named, rfl⟩ (by simp) ends
  have word := ((last.gap_token (by simp)).blank rfl).keyword .as
  have held := excerpt.holds seals_blank (by simp [Detached]) word
  have shape : " AS ".toList = ' ' :: (Keyword.as.capitals.toList ++ [' ']) := by decide +kernel
  simpa [Node.projectionSlots, named.ofText_eq, shape] using held

/-- A column is read before a comma. -/
theorem Column.holds_before (column : Column)
    (holds : Holds (.mark .comma :: slots) (',' :: chars)) :
    Holds (column.projection.projectionSlots ++ .mark .comma :: slots)
      (column.written.toList ++ ',' :: chars) := by
  obtain ⟨excerpt, name, named⟩ := column
  cases name with
  | none =>
    -- Without a name the comma comes right after the text.
    have held := excerpt.holds seals_comma (by simp [Detached]) (holds.gap_token (by simp))
    apply held.congr
    simp [projection, excerpt.formed.projectionSlots_eq.1]
  | some name => exact holds_named excerpt (named name rfl) (by simp) holds

/-- A column is read before the word of a clause, and projections end with it. -/
theorem Column.holds_last (column : Column)
    (apart : Detached slots)
    (holds : Holds (.gap :: slots) (' ' :: chars)) :
    Holds (column.projection.projectionSlots ++ (column.projection.projectionEnd ++ .gap :: slots))
      (column.written.toList ++ ' ' :: chars) := by
  obtain ⟨excerpt, name, named⟩ := column
  cases name with
  | none =>
    have held : Holds (excerpt.node.padded .expression ++ .gap :: slots)
        (excerpt.text.toList ++ ' ' :: chars) :=
      excerpt.holds seals_blank apart (Holds.gap_gap.2 holds)
    obtain ⟨shape, ending⟩ := excerpt.formed.projectionSlots_eq
    apply held.congr
    simp [projection, shape, ending, noComma]
  | some name =>
    -- After a name a comma must not touch, and it is a blank that follows.
    exact holds_named excerpt (named name rfl) (by simp) (holds.notTouching rfl rfl)

/-- Columns are read one by one before the word of a clause. -/
theorem holds_columns {columns : List Column} (nonempty : columns ≠ [])
    (apart : Detached slots)
    (holds : Holds (.gap :: slots) (' ' :: chars)) :
    Holds (.gap :: projectionSlots (some (columns.map Column.projection)) ++ slots)
      (List.intercalate [',', ' '] (columns.map fun column => column.written.toList) ++
        ' ' :: chars) := by
  have leads : ∀ column : Column, ∃ more, column.projection.projectionSlots = .gap :: more := by
    intro column
    unfold Node.projectionSlots
    split <;> exact ⟨_, rfl⟩
  -- The first column begins with a gap of its own, so the one in front takes nothing.
  rw [projectionSlots, List.map_map, List.cons_append, List.append_assoc]
  rw [Holds.gap_iff]
  · apply Holds.commaList nonempty (fun column _ => leads column)
    · exact fun column _ _ _ => column.holds_before
    · intro column last
      rw [List.getLast?_map, Option.mem_def.1 last]
      exact column.holds_last apart holds
  · obtain ⟨more, begins⟩ := @leads_commaSlots (((columns.map Column.projection).getLast?.map
      Node.projectionEnd).getD []) (columns.map (Node.projectionSlots ∘ Column.projection))
      (by simpa using nonempty) (List.forall_mem_map.2 fun column _ => leads column)
    exact ⟨more ++ ([.gap] ++ slots), by rw [begins]; rfl⟩

end Clauses

section Statement

/-- A condition is read after its word. -/
theorem Excerpt.holds_filter (condition : Excerpt) (seals : Seals chars)
    (apart : Detached slots)
    (holds : Holds (.gap :: slots) chars) :
    Holds (.gap :: (clauseSlots .where_ (some (condition.node.padded .expression)) ++ slots))
      (' ' :: (Keyword.where_.capitals.toList ++ ' ' :: (condition.text.toList ++ chars))) :=
  ((condition.holds seals apart holds).blank rfl).keyword .where_

/-- A table is read in the clause of the sources. -/
theorem holds_table {name : String} (named : IsName name)
    (holds : Holds (.gap :: slots) (' ' :: chars)) :
    Holds (.gap :: (clauseSlots .from_ (some (commaSlots noComma
        [(Node.reference none name).paddedSource])) ++ slots))
      (' ' :: (Keyword.from_.capitals.toList ++ ' ' :: (name.toList ++ ' ' :: chars))) := by
  -- A point must not touch the name, and it is a blank that follows.
  have table :
      Holds (.token (.name name) :: .notTouching (· == .mark .dot) :: .gap :: .gap :: slots)
        (name.toList ++ ' ' :: chars) :=
    ((Holds.gap_gap.2 holds).notTouching rfl rfl).token ⟨named, rfl⟩ (by simp) (by simp; rfl)
  have whole := ((table.gap_token (by simp)).blank rfl).keyword .from_
  apply whole.congr
  simp [clauseSlots, commaSlots, noComma, Node.paddedSource, padSource, Node.sourceSlots,
    Node.memberEnd, named.ofText_eq]

/-- An expression begins with `DISTINCT` only if its text does. -/
theorem Excerpt.leading_ne (excerpt : Excerpt)
    (apart : (kindsOf excerpt.text).head? ≠ some (.keyword .distinct)) :
    excerpt.node.leading ≠ some .distinct := by
  obtain ⟨formed, lexemes, shown, covers⟩ := parseExpression_eq_ok.1 excerpt.read
  intro same
  -- The first lexeme of the text tells the operator that the expression begins with.
  rw [← formed.unaryOp?_first, Lexeme.unaryOp?_eq_some] at same
  apply apart
  rw [kindsOf_eq shown, List.head?_map, head?_strip, formed.head?_of_padded covers, same]
  rfl

/-- A column is read as a projection. -/
theorem Column.projected (column : Column) :
    Projected column.projection ∧ column.projection.unnamed = column.node := by
  obtain ⟨excerpt, name, named⟩ := column
  cases name with
  | none => exact ⟨.plain excerpt.formed, excerpt.formed.unnamed_eq⟩
  | some name => exact ⟨.named excerpt.formed (named name rfl), rfl⟩

/-- The statement of columns from a table, with a condition, a grouping and an ordering. -/
def Select.ofExcerpts (columns : List Column) (condition : Excerpt) (groups orders : List Excerpt) :
    Select where
  distinct := false
  projections := some (columns.map Column.projection)
  sources := some [.reference none "t"]
  filter := some condition.node
  groupBy := some (groups.map Excerpt.node)
  orderBy := some (orders.map fun excerpt => ⟨excerpt.node, []⟩)
  limit := none
  offset := none

variable {columns : List Column} {condition : Excerpt} {groups orders : List Excerpt}

/-- A statement of excerpts is formed if none of its lists is empty. -/
theorem Select.ofExcerpts_formed (named : IsName "t") (projected : columns ≠ [])
    (grouped : groups ≠ []) (ordered : orders ≠ []) :
    SelectFormed (ofExcerpts columns condition groups orders) := by
  have source : SourceFormed .source (.reference none "t") := .ofMember (.ofBase (.table named))
  have plain : SortOption.Ordered [] := ⟨none, none, rfl, by simp, by simp⟩
  refine .clauses ?_ (by simp [ofExcerpts]) (by simp [ofExcerpts, source]) ?_ ?_ ?_
    (by simp [ofExcerpts]) (by simp [ofExcerpts]) <;> rintro _ ⟨⟩
  · exact ⟨by simpa using projected, List.forall_mem_map.2 fun column _ => column.projected.1⟩
  · exact condition.formed
  · exact ⟨by simpa using grouped, List.forall_mem_map.2 fun excerpt _ => excerpt.formed⟩
  · exact ⟨by simpa using ordered, List.forall_mem_map.2 fun excerpt _ => ⟨excerpt.formed, plain⟩⟩

/-- Every look of a statement of excerpts passes, unless its first text begins with `DISTINCT`. -/
theorem Select.ofExcerpts_passes
    (formed : SelectFormed (ofExcerpts columns condition groups orders))
    (repeated : ∀ column ∈ columns.head?, (kindsOf column.text).head? ≠ some (.keyword .distinct)) :
    Passes none (ofExcerpts columns condition groups orders).slots := by
  have told : (ofExcerpts columns condition groups orders).Told := by
    -- Only the first projection could be taken for a `DISTINCT` at the front.
    refine ⟨?_, by simp [ofExcerpts]⟩
    rintro _ _ ⟨⟩ node first
    obtain ⟨column, begins, rfl⟩ := Option.map_eq_some_iff.1 (List.head?_map ▸ first)
    rw [column.projected.2]
    exact column.leading_ne (repeated column begins)
  refine passes_select formed told ?_ (by simp)
  -- The only source is a name, which looks at nothing.
  rintro _ ⟨⟩
  simp only [List.mem_singleton, forall_eq]
  intro next closes
  exact passes_padSource trivial closes

/--
Excerpts in the clauses of one statement are read as they are by themselves, whatever they are, as
long as the first does not begin with `DISTINCT`.
-/
theorem parseStatement_excerpts (projected : columns ≠ []) (grouped : groups ≠ [])
    (ordered : orders ≠ [])
    (repeated : ∀ column ∈ columns.head?, (kindsOf column.text).head? ≠ some (.keyword .distinct)) :
    parseStatement ("SELECT " ++ ", ".intercalate (columns.map Column.written) ++
        " FROM t WHERE " ++ condition.text ++
        " GROUP BY " ++ ", ".intercalate (groups.map Excerpt.text) ++
        " ORDER BY " ++ ", ".intercalate (orders.map Excerpt.text)) =
      .ok (.ofExcerpts columns condition groups orders) := by
  have named : IsName "t" := by decide +kernel
  have formed := @Select.ofExcerpts_formed _ condition _ _ named projected grouped ordered
  have key : ∀ excerpt : Excerpt, SortKey.slots ⟨excerpt.node, []⟩ =
      excerpt.node.padded .expression ++ [.notBefore (SortOption.goesOn [])] := by
    simp [SortKey.slots]
  -- The clauses are read from the last to the first, each before the later ones.
  have order := holds_byExcerpts .order ordered (fun excerpt => ⟨_, key excerpt, rfl⟩)
    seals_nil (by simp [Detached]) (Holds.gap_gap.2 Holds.done)
  have group := holds_byExcerpts .group grouped
    (fun excerpt => ⟨[], (List.append_nil (excerpt.node.padded .expression)).symm, rfl⟩)
    seals_blank (by simp [Detached, clauseSlots]) order
  have filter := condition.holds_filter seals_blank (by simp [Detached, clauseSlots]) group
  have front := holds_columns projected (by simp [Detached, clauseSlots]) (holds_table named filter)
  have whole := (Holds.gap_gap.2 (front.blank rfl)).word .select
  -- The words of the text are those of the slots in capitals, with a blank at either end.
  have words : "SELECT ".toList = Keyword.select.capitals.toList ++ [' '] ∧
      " FROM t WHERE ".toList = ' ' :: (Keyword.from_.capitals.toList ++ ' ' ::
        ("t".toList ++ ' ' :: (Keyword.where_.capitals.toList ++ [' ']))) ∧
      " GROUP BY ".toList = ' ' :: (Keyword.group.capitals.toList ++ ' ' ::
        (Keyword.by_.capitals.toList ++ [' '])) ∧
      " ORDER BY ".toList = ' ' :: (Keyword.order.capitals.toList ++ ' ' ::
        (Keyword.by_.capitals.toList ++ [' '])) ∧ ", ".toList = [',', ' '] := by decide +kernel
  apply parseStatement_of_holds formed (Select.ofExcerpts_passes formed repeated) (whole.congr ?_)
  · simp [String.toList_intercalate, words, Function.comp_def]
  · simp [Select.ofExcerpts, Select.slots_eq, clauseSlots, Function.comp_def]

/-- A sign, a point and a choice are read in every clause, under a name and without one. -/
theorem parseStatement_excerpts_case : ∃ (sign choice : Excerpt) (named : IsName "x"),
    sign.text = "- a.*" ∧ choice.text = " case when b then c end" ∧
      parseStatement ("SELECT - a.* AS x,  case when b then c end FROM t WHERE - a.* " ++
          "GROUP BY  case when b then c end ORDER BY - a.*,  case when b then c end") =
        .ok (.ofExcerpts [sign.under named, choice.bare] sign [choice] [sign, choice]) := by
  have accepted : (parseExpression "- a.*").isOk = true ∧
      (parseExpression " case when b then c end").isOk = true := by decide +kernel
  obtain ⟨first, signRead⟩ := exists_ok_of_isOk accepted.1
  obtain ⟨second, choiceRead⟩ := exists_ok_of_isOk accepted.2
  let sign : Excerpt := ⟨_, first, signRead⟩
  let choice : Excerpt := ⟨_, second, choiceRead⟩
  have named : IsName "x" := by decide +kernel
  -- The first text begins with a sign, so it is not taken for `DISTINCT`.
  have kinds : (kindsOf "- a.*").head? ≠ some (.keyword .distinct) := by decide +kernel
  have read := @parseStatement_excerpts [sign.under named, choice.bare] sign [choice]
    [sign, choice] (by simp) (by simp) (by simp) (by simpa [sign, Excerpt.under] using kinds)
  have text : ("SELECT - a.* AS x,  case when b then c end FROM t WHERE - a.* " ++
      "GROUP BY  case when b then c end ORDER BY - a.*,  case when b then c end") =
      "SELECT " ++ ", ".intercalate ["- a.*" ++ " AS " ++ "x", " case when b then c end"] ++
        " FROM t WHERE " ++ "- a.*" ++
        " GROUP BY " ++ ", ".intercalate [" case when b then c end"] ++
        " ORDER BY " ++ ", ".intercalate ["- a.*", " case when b then c end"] := by decide +kernel
  refine ⟨sign, choice, named, rfl, rfl, ?_⟩
  rw [text]
  exact read

end Statement

end SelectSql
