import SelectSql.Proofs.Reading.ExpressionComplete
import SelectSql.Proofs.Reading.Statement

/-!
Every source and every statement is read back from lexemes that fill its spelling. A list of joins
groups to the left, so the joins are read in the order in which the tree holds them.
-/

namespace SelectSql

variable {lexemes after rest : List Lexeme} {node : Node}

/-- A list of items that leave no white space behind leaves none either. -/
theorem flush_of_commaSlots {α : Type} {slots : α → List Slot}
    (flush : ∀ value lexemes rest, fill (slots value) lexemes = some rest → skip rest = rest)
    {values : List α} (nonempty : values ≠ [])
    (filled : fill (commaSlots noComma (values.map slots)) lexemes = some rest) :
    skip rest = rest := by
  -- The induction is on the items: what the list leaves is what its last item leaves.
  induction values generalizing lexemes with
  | nil => exact absurd rfl nonempty
  | cons first others ih =>
    cases others with
    | nil =>
      rw [List.map_cons, List.map_nil, commaSlots, fill_append_eq_some] at filled
      obtain ⟨after, firstFilled, ended⟩ := filled
      obtain ⟨_, same⟩ := fill_notBefore_eq_some.1 ended
      rw [← Option.some.inj same]
      exact flush _ _ _ firstFilled
    | cons second others =>
      rw [List.map_cons, List.map_cons, commaSlots, fill_append_eq_some] at filled
      obtain ⟨after, _, following⟩ := filled
      rw [fill_token_eq_some] at following
      obtain ⟨inside, _, othersFilled⟩ := following
      exact ih (by simp) othersFilled

/-- What fills a source with the white space around it leaves no white space in front. -/
theorem flush_of_paddedSource (filled : fill node.paddedSource lexemes = some rest) :
    skip rest = rest := by
  rw [Node.paddedSource, padSource, fill_append_eq_some] at filled
  obtain ⟨after, _, ending⟩ := filled
  rw [fill_gap, fill_notBefore_eq_some] at ending
  -- The white space after the source is skipped before the look ahead.
  rw [← Option.some.inj ending.2, skip_skip]

/-- Modifiers leave no white space behind if there was none before them. -/
theorem flush_of_options {options : List SortOption} (flush : skip lexemes = lexemes)
    (filled : fill (options.flatMap fun option => keywordSlots option.keywords ++ [.gap]) lexemes =
      some rest) : skip rest = rest := by
  -- Each modifier skips the white space after it, so only the empty row needs the assumption.
  induction options generalizing lexemes with
  | nil =>
    obtain rfl := Option.some.inj filled
    exact flush
  | cons option options ih =>
    rw [List.flatMap_cons, fill_append_eq_some] at filled
    obtain ⟨after, optionFilled, others⟩ := filled
    rw [fill_append_eq_some] at optionFilled
    obtain ⟨stop, _, skipped⟩ := optionFilled
    apply ih ?_ others
    rw [← Option.some.inj skipped, skip_skip]

/-- A sort key leaves no white space behind. -/
theorem flush_of_sortKey {key : SortKey} (filled : fill key.slots lexemes = some rest) :
    skip rest = rest := by
  rw [SortKey.slots, List.append_assoc, fill_append_eq_some] at filled
  obtain ⟨middle, nodeFilled, filled⟩ := filled
  rw [fill_append_eq_some] at filled
  obtain ⟨after, optionsFilled, ended⟩ := filled
  rw [fill_notBefore_eq_some] at ended
  rw [← Option.some.inj ended.2]
  -- The modifiers begin where the key has left no white space.
  exact flush_of_options (flush_of_pad nodeFilled) optionsFilled

/-- The value of a `LIMIT` or `OFFSET` leaves no white space behind. -/
theorem flush_of_rowCount (filled : fill (rowCountSlots node) lexemes = some rest) :
    skip rest = rest := by
  rw [rowCountSlots, fill_append_eq_some] at filled
  obtain ⟨after, _, skipped⟩ := filled
  rw [← Option.some.inj skipped, skip_skip]

/-- Projections leave no white space behind if there was none before them. -/
theorem flush_of_projections {items : Option (List Node)} (flush : skip lexemes = lexemes)
    (filled : fill (projectionSlots items) lexemes = some rest) : skip rest = rest := by
  -- Projections skip white space at their end, and where there are none nothing is read.
  cases items with
  | none =>
    obtain ⟨_, same⟩ := fill_notBefore_eq_some.1 filled
    rw [← Option.some.inj same, flush]
  | some nodes =>
    rw [projectionSlots, fill_append_eq_some] at filled
    obtain ⟨stop, _, skipped⟩ := filled
    rw [← Option.some.inj skipped, skip_skip]

/-- Lexemes that spell a projection begin with one that may begin an expression. -/
theorem Projected.head?_starts {slots : List Slot} (projected : Projected node)
    (filled : fill (node.projectionSlots ++ slots) lexemes = some rest) :
    ∃ lexeme, (skip lexemes).head? = some lexeme ∧ lexeme.starts = true := by
  -- With or without its name, a projection begins with its expression.
  cases projected with
  | plain formed =>
    rw [formed.projectionSlots_eq.1, List.append_assoc] at filled
    exact ⟨_, formed.head?_of_padded filled, formed.starts⟩
  | named formed _ =>
    rw [Node.projectionSlots, List.append_assoc] at filled
    exact ⟨_, formed.head?_of_padded filled, formed.starts⟩

/-- The end of projections after the last of them is passed where no comma goes on. -/
theorem Projected.ends {before : List Lexeme} (projected : Projected node)
    (filled : fill node.projectionSlots before = some after)
    (ended : fill node.projectionEnd after = some rest) :
    rest = after ∧ Avoids (· == .mark .comma) after := by
  -- A name is touched by no comma. An expression looks behind white space, of which none is left.
  cases projected with
  | plain formed =>
    rw [formed.projectionSlots_eq.1, fill_append_eq_some] at filled
    obtain ⟨stop, nodeFilled, unnamed⟩ := filled
    obtain ⟨_, same⟩ := fill_notBefore_eq_some.1 unnamed
    obtain rfl := Option.some.inj same
    rw [formed.projectionSlots_eq.2] at ended
    obtain ⟨avoids, same⟩ := fill_notBefore_eq_some.1 ended
    rw [flush_of_pad nodeFilled] at avoids
    exact ⟨(Option.some.inj same).symm, avoids⟩
  | named _ _ =>
    obtain ⟨avoids, same⟩ := fill_notTouching_eq_some.1 ended
    exact ⟨(Option.some.inj same).symm, avoids⟩

namespace Grammar

open Parsing

variable {inner : Rules Lexer}

section Clauses

/-- A projection is given where its spelling is filled. -/
theorem projection_gives (complete : inner.Complete) (projected : Projected node)
    (filled : fill node.projectionSlots lexemes = some rest) :
    Gives (projection inner) lexemes node rest := by
  cases projected with
  | plain formed =>
    rw [formed.projectionSlots_eq.1, fill_append_eq_some] at filled
    obtain ⟨after, nodeFilled, ended⟩ := filled
    obtain ⟨noAs, same⟩ := fill_notBefore_eq_some.1 ended
    obtain rfl := Option.some.inj same
    -- Without a name no `AS` follows the expression.
    rw [flush_of_pad nodeFilled] at noAs
    refine (complete.expression ⟨formed, nodeFilled⟩).bind ?_
    exact Gives.eatKeyword_missed noAs Gives.pure
  | @named inner name formed isName =>
    rw [Node.projectionSlots, fill_append_eq_some] at filled
    obtain ⟨after, innerFilled, following⟩ := filled
    rw [fill_token_eq_some] at following
    obtain ⟨inside, rfl, following⟩ := following
    rw [fill_gap, fill_token_eq_some] at following
    obtain ⟨others, shape, same⟩ := following
    obtain rfl := Option.some.inj same
    -- With a name the expression ends before the `AS`.
    refine (complete.expression ⟨formed, innerFilled⟩).bind ?_
    apply Gives.eatKeyword_met
    apply Gives.skipSpace_bind
    rw [shape, isName.ofText_eq]
    exact Gives.requireIdentifier_bind Gives.pure

/-- Projections are given where their spelling is filled. -/
theorem projections?_gives (complete : inner.Complete) {items : Option (List Node)}
    (projected : ∀ nodes ∈ items, nodes ≠ [] ∧ ∀ node ∈ nodes, Projected node)
    (flush : skip lexemes = lexemes) (filled : fill (projectionSlots items) lexemes = some rest) :
    Gives (projections? inner) lexemes items rest := by
  cases items with
  | none =>
    rw [projectionSlots, fill_notBefore_eq_some, flush] at filled
    obtain ⟨stops, same⟩ := filled
    obtain rfl := Option.some.inj same
    apply Gives.peek_bind
    intro token seen
    rw [token.isKeyword_eq, token.isKeyword_eq]
    -- The slots let only `FROM`, `WHERE` and the end follow, which are what the rule stops at.
    have ends : (token.lexeme == .keyword .from_ || token.lexeme == .keyword .where_ ||
        token.isEof) = true := by
      rcases seen with ⟨_, first⟩ | ⟨ending, _⟩
      · have fails := stops _ first
        cases isFrom : token.lexeme == .keyword .from_
        · cases isWhere : token.lexeme == .keyword .where_
          · simp [bne, isFrom, isWhere] at fails
          · rfl
        · rfl
      · rw [ending, Bool.or_true]
    rw [ends, if_pos rfl]
    exact Gives.pure
  | some nodes =>
    obtain ⟨nonempty, each⟩ := projected nodes rfl
    rw [projectionSlots, fill_append_eq_some] at filled
    obtain ⟨after, listed, skipped⟩ := filled
    rw [fill_gap, fill_nil] at skipped
    obtain rfl := Option.some.inj skipped
    -- The first projection begins where the rule looks.
    have begins : ∃ lexeme, lexemes.head? = some lexeme ∧ lexeme.starts = true := by
      obtain ⟨first, others, rfl⟩ := List.exists_cons_of_ne_nil nonempty
      have begun : ∃ slots, fill (first.projectionSlots ++ slots) lexemes = some after := by
        cases others with
        | nil => exact ⟨_, listed⟩
        | cons second others => exact ⟨_, listed⟩
      obtain ⟨slots, begun⟩ := begun
      rw [← flush]
      exact (each first (by simp)).head?_starts begun
    obtain ⟨lexeme, head, starts⟩ := begins
    apply Gives.peek_head head
    intro token real first
    -- No expression begins with the keyword of a clause.
    have goes : (token.isKeyword .from_ || token.isKeyword .where_ || token.isEof) = false := by
      have noFrom : lexeme ≠ .keyword .from_ := by
        rintro rfl
        cases starts
      have noWhere : lexeme ≠ .keyword .where_ := by
        rintro rfl
        cases starts
      simp [token.isKeyword_eq, first, real, noFrom, noWhere]
    rw [goes, if_neg (by decide)]
    -- What the slots say of the end is said of the last projection.
    have last : ∃ last, nodes.getLast? = some last ∧ ∀ before after rest,
        fill last.projectionSlots before = some after →
        fill ((nodes.getLast?.map Node.projectionEnd).getD []) after = some rest →
          rest = after ∧ Avoids (· == .mark .comma) after := by
      refine ⟨_, List.getLast?_eq_some_getLast nonempty, ?_⟩
      intro before after rest lastFilled ended
      rw [List.getLast?_eq_some_getLast nonempty, Option.map_some, Option.getD_some] at ended
      exact (each _ (List.getLast_mem nonempty)).ends lastFilled ended
    refine (Gives.separated ?_ _ nodes lexemes each last listed).bind ?_
    · intro node lexemes rest projected filled
      exact projection_gives complete projected filled
    · apply Gives.skipSpace_bind
      exact Gives.pure

/-- The value of a `LIMIT` or `OFFSET` is given where its spelling is filled. -/
theorem rowCount_gives (complete : inner.Complete) (formed : Formed .atom node)
    (filled : fill (rowCountSlots node) lexemes = some rest) :
    Gives (rowCount inner) lexemes node rest := by
  rw [rowCountSlots, List.cons_append, fill_gap, fill_append_eq_some] at filled
  obtain ⟨after, nodeFilled, skipped⟩ := filled
  rw [fill_gap, fill_nil] at skipped
  obtain rfl := Option.some.inj skipped
  apply Gives.skipSpace_bind
  -- One atom is read, with white space on either side.
  refine (atom_gives complete ⟨formed, nodeFilled⟩).bind ?_
  apply Gives.skipSpace_bind
  exact Gives.pure

/-- The list of a `GROUP` or `ORDER` is given where its spelling is filled. -/
theorem byList_gives {α : Type} {item : Parsing Lexer α} {good : α → Prop} {slots : α → List Slot}
    (each : ∀ value lexemes rest, good value → fill (slots value) lexemes = some rest →
      Gives item lexemes value rest)
    (flush : ∀ value lexemes rest, fill (slots value) lexemes = some rest → skip rest = rest)
    {values : List α} (nonempty : values ≠ []) (hold : ∀ value ∈ values, good value)
    (filled : fill (byListSlots (values.map slots)) lexemes = some rest) :
    Gives (byList inner item) lexemes values rest ∧ skip rest = rest := by
  rw [byListSlots, fill_gap, fill_token_eq_some] at filled
  obtain ⟨inside, shape, listed⟩ := filled
  refine ⟨?_, flush_of_commaSlots flush nonempty listed⟩
  apply Gives.skipSpace_bind
  rw [shape]
  -- The `BY` is required before the first item.
  apply Gives.requireKeyword_bind
  exact Gives.commaList each flush nonempty hold listed

/-- A clause is given where its spelling is filled, and leaves no white space behind. -/
theorem clause_gives {α : Type} {word : Keyword} {item : Parsing Lexer α}
    {slots : α → List Slot} {found : Option α} (flush : skip lexemes = lexemes)
    (each : ∀ value ∈ found, ∀ lexemes rest, fill (slots value) lexemes = some rest →
      Gives item lexemes value rest ∧ skip rest = rest)
    (filled : fill (clauseSlots word (found.map slots)) lexemes = some rest) :
    Gives (after? word item) lexemes found rest ∧ skip rest = rest := by
  cases found with
  | none =>
    rw [Option.map_none, clauseSlots, fill_notBefore_eq_some, flush] at filled
    -- An absent clause takes nothing, and its keyword is not next.
    obtain ⟨avoids, same⟩ := filled
    obtain rfl := Option.some.inj same
    exact ⟨Gives.after?_missed avoids, flush⟩
  | some value =>
    rw [Option.map_some, clauseSlots, fill_token_eq_some] at filled
    obtain ⟨inside, rfl, held⟩ := filled
    -- A clause that is there leaves what its body leaves.
    obtain ⟨gives, flush⟩ := each value rfl inside rest held
    exact ⟨Gives.after?_met gives, flush⟩

/-- A place of nulls is given where its spelling is filled, of which the `NULLS` has been taken. -/
theorem place_gives {option : SortOption} (isPlace : option.isPlace = true)
    (filled : fill (keywordSlots option.keywords) (.keyword .nulls :: lexemes) = some rest) :
    Gives (do
      skipSpace
      require .nullsPlace Token.nullsPlace?) lexemes option rest := by
  -- Either place is the second of two words.
  have second : ∀ word : Keyword, (Lexeme.keyword word).nullsPlace? = some option →
      fill [.keyword .nulls, .gap, .keyword word] (.keyword .nulls :: lexemes) = some rest →
      Gives (do
        skipSpace
        require .nullsPlace Token.nullsPlace?) lexemes option rest := by
    intro word spelled filled
    rw [fill_token, fill_gap, fill_token_eq_some] at filled
    obtain ⟨inside, shape, same⟩ := filled
    obtain rfl := Option.some.inj same
    apply Gives.skipSpace_bind
    rw [shape, ← bind_pure (require _ _)]
    -- The word is required, and it tells the place.
    apply Gives.require_bind
    · intro token shown
      rw [token.nullsPlace?_eq, shown]
      exact spelled
    · exact Gives.pure
  cases option with
  | nullsFirst => exact second .first rfl filled
  | nullsLast => exact second .last rfl filled
  | _ => cases isPlace

/-- A place of nulls is given where its words are filled, and none where no `NULLS` is next. -/
theorem nulls?_gives {nulls : Option SortOption} (isPlace : ∀ option ∈ nulls, option.isPlace = true)
    (noNulls : nulls = none → Avoids (· == .keyword .nulls) lexemes)
    (flush : skip lexemes = lexemes)
    (filled : fill (nulls.toList.flatMap fun option => keywordSlots option.keywords ++ [.gap])
      lexemes = some rest) :
    ∃ stop, skip stop = rest ∧ Gives (after? .nulls do
      skipSpace
      require .nullsPlace Token.nullsPlace?) lexemes nulls stop := by
  cases nulls with
  | none =>
    obtain rfl := Option.some.inj filled
    exact ⟨lexemes, flush, Gives.after?_missed (noNulls rfl)⟩
  | some option =>
    rw [Option.toList_some, List.flatMap_singleton, fill_append_eq_some] at filled
    obtain ⟨stop, wordsFilled, skipped⟩ := filled
    -- Either place begins with the `NULLS`, of which the rest is one word.
    have begins : ∃ inside, lexemes = .keyword .nulls :: inside := by
      have place := isPlace option rfl
      cases option with
      | nullsFirst | nullsLast =>
        obtain ⟨inside, shape, _⟩ := fill_token_eq_some.1 wordsFilled
        exact ⟨inside, shape⟩
      | _ => cases place
    obtain ⟨inside, rfl⟩ := begins
    refine ⟨stop, Option.some.inj skipped, ?_⟩
    exact Gives.after?_met (place_gives (isPlace option rfl) wordsFilled)

/-- A direction is given where its word is filled, and none where no direction is next. -/
theorem direction?_gives {direction : Option SortOption}
    (noPlace : ∀ option ∈ direction, option.isPlace = false)
    (noDirection : direction = none → Avoids (fun lexeme => lexeme.direction?.isSome) lexemes)
    (flush : skip lexemes = lexemes)
    (filled : fill (direction.toList.flatMap fun option => keywordSlots option.keywords ++ [.gap])
      lexemes = some rest) :
    ∃ stop, skip stop = rest ∧ Gives (accept? Token.direction?) lexemes direction stop := by
  cases direction with
  | none =>
    obtain rfl := Option.some.inj filled
    refine ⟨lexemes, flush, ?_⟩
    rw [← bind_pure (accept? _)]
    apply Gives.accept_missed fun lexeme => lexeme.direction?.isSome
    · intro token
      rw [token.direction?_eq]
    · rfl
    · exact noDirection rfl
    · exact Gives.pure
  | some option =>
    -- Either direction is one word.
    have one : ∀ word : Keyword, (Lexeme.keyword word).direction? = some option →
        keywordSlots option.keywords = [.keyword word] →
        ∃ stop, skip stop = rest ∧ Gives (accept? Token.direction?) lexemes (some option) stop := by
      intro word spelled slots
      rw [Option.toList_some, List.flatMap_singleton, slots, List.cons_append,
        fill_token_eq_some] at filled
      obtain ⟨inside, rfl, skipped⟩ := filled
      refine ⟨inside, Option.some.inj skipped, ?_⟩
      rw [← bind_pure (accept? _)]
      apply Gives.accept_met
      intro token shown
      refine ⟨option, ?_, Gives.pure⟩
      rw [token.direction?_eq, shown]
      exact spelled
    have direct := noPlace option rfl
    cases option with
    | asc => exact one .asc rfl rfl
    | desc => exact one .desc rfl rfl
    | _ => cases direct

/-- A sort key is given where its spelling is filled. -/
theorem sortKey_gives (complete : inner.Complete) (key : SortKey)
    (formed : Formed .expression key.key) (ordered : SortOption.Ordered key.options)
    (filled : fill key.slots lexemes = some rest) :
    Gives (sortKey inner) lexemes key rest := by
  have wholeFlush := flush_of_sortKey filled
  obtain ⟨node, options⟩ := key
  obtain ⟨direction, nulls, same, noPlace, isPlace⟩ := ordered
  simp only at formed same
  subst same
  rw [SortKey.slots, List.flatMap_append, List.append_assoc, List.append_assoc,
    fill_append_eq_some] at filled
  -- The slots fall into the key, the direction, the place of nulls, and the look ahead.
  obtain ⟨middle, nodeFilled, filled⟩ := filled
  rw [fill_append_eq_some] at filled
  obtain ⟨after, directionFilled, filled⟩ := filled
  rw [fill_append_eq_some] at filled
  obtain ⟨stop, placeFilled, ended⟩ := filled
  rw [fill_notBefore_eq_some, fill_nil] at ended
  obtain ⟨noMore, same⟩ := ended
  obtain rfl := Option.some.inj same
  rw [wholeFlush] at noMore
  have nodeFlush : skip middle = middle := flush_of_pad nodeFilled
  have flush := flush_of_options nodeFlush directionFilled
  -- What goes on after the key would be a `NULLS`, whatever the direction is.
  have noNulls : nulls = none → Avoids (· == .keyword .nulls) after := by
    rintro rfl
    obtain rfl := Option.some.inj placeFilled
    apply noMore.mono
    intro lexeme same
    have none : direction.toList.any SortOption.isPlace = false := by
      cases direction with
      | none => rfl
      | some option => simpa using noPlace option rfl
    simp [SortOption.goesOn, none, beq_iff_eq.1 same]
  -- Without a direction either nothing was to go on, or what goes on is a `NULLS`.
  have noDirection : direction = none →
      Avoids (fun lexeme => lexeme.direction?.isSome) middle := by
    rintro rfl
    obtain rfl := Option.some.inj directionFilled
    cases nulls with
    | none =>
      obtain rfl := Option.some.inj placeFilled
      apply noMore.mono
      intro lexeme spelled
      simp [SortOption.goesOn, spelled]
    | some option =>
      have place := isPlace option rfl
      cases option with
      | nullsFirst | nullsLast =>
        obtain ⟨inside, rfl, _⟩ := fill_token_eq_some.1 placeFilled
        simp [Lexeme.direction?]
      | _ => cases place
  obtain ⟨directed, rfl, directionGives⟩ :=
    direction?_gives noPlace noDirection nodeFlush directionFilled
  obtain ⟨placed, rfl, nullsGives⟩ := nulls?_gives isPlace noNulls flush placeFilled
  -- The rule reads the three parts in the order of the slots.
  refine (complete.expression ⟨formed, nodeFilled⟩).bind ?_
  refine directionGives.bind ?_
  apply Gives.skipSpace_bind
  refine nullsGives.bind ?_
  apply Gives.skipSpace_bind
  exact Gives.pure

/-- A list of sources is given where its spelling is filled, and leaves no white space behind. -/
theorem sources_gives (complete : inner.Complete) (bound : Nat) {nodes : List Node}
    (nonempty : nodes ≠ []) (formed : ∀ node ∈ nodes, SourceFormed .source node)
    (filled : fill (commaSlots noComma (nodes.map Node.paddedSource)) lexemes = some rest) :
    Gives (separated inner.source bound) lexemes nodes rest ∧ skip rest = rest := by
  -- A source takes the white space after it, so the list leaves none.
  have flush : ∀ (node : Node) (lexemes rest : List Lexeme),
      fill node.paddedSource lexemes = some rest → skip rest = rest := by
    intro node lexemes rest filled
    exact flush_of_paddedSource filled
  refine ⟨Gives.commaList ?_ flush nonempty formed filled,
    flush_of_commaSlots flush nonempty filled⟩
  intro node lexemes rest formed filled
  exact complete.source ⟨formed, filled⟩

/-- A statement is given where its spelling is filled. -/
theorem select_gives (complete : inner.Complete) {statement : Select}
    (formed : SelectFormed statement) (filled : fill statement.slots lexemes = some rest) :
    Gives (select inner) lexemes statement rest := by
  obtain ⟨projected, nonempty, sourcesFormed, filterFormed, groupFormed, orderFormed, limitFormed,
    offsetFormed⟩ := formed
  obtain ⟨distinct, projections, sources, filter, groupBy, orderBy, limit, offset⟩ := statement
  rw [Select.slots_eq] at filled
  rw [fill_token_eq_some] at filled
  obtain ⟨inside, rfl, filled⟩ := filled
  rw [fill_gap, fill_append_eq_some] at filled
  -- The slots are cut at the ends of the clauses, in the order in which they stand.
  obtain ⟨begun, distinctFilled, filled⟩ := filled
  rw [fill_gap, fill_append_eq_some] at filled
  obtain ⟨one, projectionsFilled, filled⟩ := filled
  obtain ⟨two, sourcesFilled, filled⟩ := fill_append_eq_some.1 filled
  obtain ⟨three, filterFilled, filled⟩ := fill_append_eq_some.1 filled
  obtain ⟨four, groupFilled, filled⟩ := fill_append_eq_some.1 filled
  obtain ⟨five, orderFilled, filled⟩ := fill_append_eq_some.1 filled
  obtain ⟨six, limitFilled, offsetFilled⟩ := fill_append_eq_some.1 filled
  -- Each clause is given where the one before it has stopped.
  have flush := flush_of_projections skip_skip projectionsFilled
  obtain ⟨sourcesGives, flush⟩ := clause_gives flush
    (fun nodes member _ _ held => sources_gives complete inner.bound (nonempty nodes member)
      (sourcesFormed nodes member) held) sourcesFilled
  obtain ⟨filterGives, flush⟩ := clause_gives flush
    (fun node member _ _ held =>
      ⟨complete.expression ⟨filterFormed node member, held⟩, flush_of_pad held⟩) filterFilled
  obtain ⟨groupGives, flush⟩ := clause_gives flush
    (fun nodes member _ _ held => byList_gives
      (fun _ _ _ formed filled => complete.expression ⟨formed, filled⟩)
      (fun _ _ _ filled => flush_of_pad filled) (groupFormed nodes member).1
      (groupFormed nodes member).2 held) groupFilled
  obtain ⟨orderGives, flush⟩ := clause_gives flush
    (fun keys member _ _ held => byList_gives
      (fun key _ _ formed filled => sortKey_gives complete key formed.1 formed.2 filled)
      (fun _ _ _ filled => flush_of_sortKey filled) (orderFormed keys member).1
      (orderFormed keys member).2 held) orderFilled
  obtain ⟨limitGives, flush⟩ := clause_gives flush
    (fun node member _ _ held =>
      ⟨rowCount_gives complete (limitFormed node member) held, flush_of_rowCount held⟩) limitFilled
  obtain ⟨offsetGives, _⟩ := clause_gives flush
    (fun node member _ _ held =>
      ⟨rowCount_gives complete (offsetFormed node member) held, flush_of_rowCount held⟩)
    offsetFilled
  -- After the `DISTINCT` all goes on alike, whether or not there was one.
  have clauses : ∀ entry, skip entry = skip begun → Gives (do
      skipSpace
      let projections ← projections? inner
      let sources ← after? .from_ (separated inner.source inner.bound)
      let filter ← after? .where_ inner.expression
      let groupBy ← after? .group (byList inner inner.expression)
      let orderBy ← after? .order (byList inner (sortKey inner))
      let limit ← after? .limit (rowCount inner)
      let offset ← after? .offset (rowCount inner)
      return ({ distinct, projections, sources, filter, groupBy, orderBy, limit, offset }
        : Select)) entry ⟨distinct, projections, sources, filter, groupBy, orderBy, limit, offset⟩
          rest := by
    intro entry entered
    apply Gives.skipSpace_bind
    rw [entered]
    refine (projections?_gives complete projected skip_skip projectionsFilled).bind ?_
    refine sourcesGives.bind ?_
    refine filterGives.bind ?_
    refine groupGives.bind ?_
    refine orderGives.bind ?_
    refine limitGives.bind ?_
    refine offsetGives.bind ?_
    exact Gives.pure
  apply Gives.requireKeyword_bind
  apply Gives.skipSpace_bind
  -- Without a `DISTINCT` the slots say that none follows.
  cases distinct with
  | true =>
    obtain ⟨others, shape, same⟩ := fill_token_eq_some.1 distinctFilled
    obtain rfl := Option.some.inj same
    rw [shape]
    apply Gives.eatKeyword_met
    exact clauses others rfl
  | false =>
    obtain ⟨avoids, same⟩ := fill_notBefore_eq_some.1 distinctFilled
    obtain rfl := Option.some.inj same
    rw [skip_skip] at avoids
    apply Gives.eatKeyword_missed avoids
    exact clauses (skip inside) rfl

end Clauses

section Sources

/-- The words of a join are given once the `OUTER` is decided on and the `JOIN` is next. -/
theorem joinWords_of_outer {first kind : JoinKind} {between : List Lexeme} (more : first ≠ .plain)
    (decided : Gives (outer first) (skip lexemes) kind between)
    (filled : fill [.keyword .join] (skip between) = some rest) :
    Gives (joinWords first) lexemes kind rest := by
  obtain ⟨inside, shape, same⟩ := fill_token_eq_some.1 filled
  obtain rfl := Option.some.inj same
  unfold joinWords
  rw [if_neg (by simpa using more)]
  apply Gives.skipSpace_bind
  refine decided.bind ?_
  apply Gives.skipSpace_bind
  rw [shape]
  exact Gives.requireKeyword_bind Gives.pure

/-- The words of a join are given where their spelling is filled. -/
theorem joinWords_gives {kind : JoinKind}
    (filled : fill (keywordSlots (kind.keywords ++ [.join])) lexemes = some rest) :
    ∃ (lexeme : Lexeme) (first : JoinKind) (inside : List Lexeme), lexemes = lexeme :: inside ∧
      lexeme.joinKind? = some first ∧ Gives (joinWords first) inside kind rest := by
  -- Most joins have one word before the `JOIN`, and then there is no `OUTER` to be found.
  have alone : ∀ (word : Keyword) (kind : JoinKind), kind ≠ .plain →
      (Lexeme.keyword word).joinKind? = some kind →
      (∀ entry, Avoids (· == .keyword .outer) entry → Gives (outer kind) entry kind entry) →
      fill [.keyword word, .gap, .keyword .join] lexemes = some rest →
      ∃ (lexeme : Lexeme) (first : JoinKind) (inside : List Lexeme), lexemes = lexeme :: inside ∧
        lexeme.joinKind? = some first ∧ Gives (joinWords first) inside kind rest := by
    intro word kind more begins decided filled
    obtain ⟨inside, rfl, following⟩ := fill_token_eq_some.1 filled
    rw [fill_gap] at following
    have noOuter : Avoids (· == .keyword .outer) (skip inside) := by
      obtain ⟨others, shape, _⟩ := fill_token_eq_some.1 following
      simp [shape]
    refine ⟨.keyword word, kind, inside, rfl, begins, ?_⟩
    exact joinWords_of_outer more (decided _ noOuter) (by rwa [skip_skip])
  -- The others have the `OUTER` as their second word.
  have withOuter : ∀ (word : Keyword) (first kind : JoinKind), first ≠ .plain →
      (Lexeme.keyword word).joinKind? = some first →
      (∀ others, Gives (outer first) (.keyword .outer :: others) kind others) →
      fill [.keyword word, .gap, .keyword .outer, .gap, .keyword .join] lexemes = some rest →
      ∃ (lexeme : Lexeme) (first : JoinKind) (inside : List Lexeme), lexemes = lexeme :: inside ∧
        lexeme.joinKind? = some first ∧ Gives (joinWords first) inside kind rest := by
    intro word first kind more begins decided filled
    obtain ⟨inside, rfl, following⟩ := fill_token_eq_some.1 filled
    rw [fill_gap, fill_token_eq_some] at following
    obtain ⟨others, shape, following⟩ := following
    refine ⟨.keyword word, first, inside, rfl, begins, ?_⟩
    refine joinWords_of_outer more ?_ following
    rw [shape]
    exact decided others
  cases kind with
  | plain =>
    obtain ⟨inside, rfl, same⟩ := fill_token_eq_some.1 filled
    obtain rfl := Option.some.inj same
    exact ⟨.keyword .join, .plain, inside, rfl, rfl, Gives.pure⟩
  | inner => exact alone .inner .inner (by decide) rfl (fun _ _ => Gives.pure) filled
  | cross => exact alone .cross .cross (by decide) rfl (fun _ _ => Gives.pure) filled
  | left =>
    refine alone .left .left (by decide) rfl ?_ filled
    exact fun _ avoids => Gives.eatKeyword_missed avoids Gives.pure
  | leftOuter =>
    refine withOuter .left .left .leftOuter (by decide) rfl ?_ filled
    exact fun _ => Gives.eatKeyword_met Gives.pure
  | right =>
    refine alone .right .right (by decide) rfl ?_ filled
    exact fun _ avoids => Gives.eatKeyword_missed avoids Gives.pure
  | rightOuter =>
    refine withOuter .right .right .rightOuter (by decide) rfl ?_ filled
    exact fun _ => Gives.eatKeyword_met Gives.pure
  | fullOuter =>
    -- A full join has no form without the `OUTER`, so the word is required of it.
    refine withOuter .full .fullOuter .fullOuter (by decide) rfl ?_ filled
    exact fun _ => Gives.requireKeyword_bind Gives.pure

/-- A source without its name is given where its spelling is filled. -/
theorem unnamedSource_gives (complete : inner.Complete) (formed : SourceFormed .base node)
    (filled : fill node.sourceSlots lexemes = some rest) :
    Gives (unnamedSource inner) lexemes node rest := by
  cases formed with
  | table named =>
    rw [Node.sourceSlots, named.ofText_eq, fill_token_eq_some] at filled
    obtain ⟨inside, rfl, filled⟩ := filled
    -- A bare name is not followed by a dot.
    obtain ⟨avoids, same⟩ := fill_notTouching_eq_some.1 filled
    obtain rfl := Option.some.inj same
    apply Gives.eatMark_missed (by simp)
    apply Gives.peek_head rfl
    intro token _ first
    rw [token.isKeyword_eq, first]
    apply Gives.requireIdentifier_bind
    exact Gives.eatMark_missed avoids Gives.pure
  | qualified held named =>
    -- With a dot, both names touch it.
    rw [Node.sourceSlots, held.ofText_eq, named.ofText_eq, fill_token_eq_some] at filled
    obtain ⟨inside, rfl, filled⟩ := filled
    rw [fill_token_eq_some] at filled
    obtain ⟨inside, rfl, filled⟩ := filled
    rw [fill_token_eq_some] at filled
    obtain ⟨inside, rfl, same⟩ := filled
    obtain rfl := Option.some.inj same
    apply Gives.eatMark_missed (by simp)
    apply Gives.peek_head rfl
    intro token _ first
    rw [token.isKeyword_eq, first]
    apply Gives.requireIdentifier_bind
    apply Gives.eatMark_met
    exact Gives.requireIdentifier_bind Gives.pure
  | parens held =>
    rw [Node.sourceSlots, List.cons_append, fill_token_eq_some] at filled
    obtain ⟨inside, rfl, filled⟩ := filled
    rw [fill_concat_token] at filled
    -- What is between parentheses is a whole source, joins included.
    apply Gives.eatMark_met
    exact (complete.source ⟨held, filled⟩).closedBy.reshape rfl
  | select formed =>
    rw [Node.sourceSlots] at filled
    -- A statement is known by its `SELECT`, which is looked for before a name.
    have begun := filled
    rw [Select.slots_eq, fill_token_eq_some] at begun
    obtain ⟨inside, rfl, _⟩ := begun
    apply Gives.eatMark_missed (by simp)
    apply Gives.peek_head rfl
    intro token _ first
    rw [token.isKeyword_eq, first]
    exact (select_gives complete formed filled).reshape rfl

/-- A member of a join is given where its spelling is filled. -/
theorem joined_gives (complete : inner.Complete) (formed : SourceFormed .member node)
    (filled : fill (.gap :: node.sourceSlots ++ node.memberEnd) lexemes = some rest) :
    Gives (joined inner) lexemes node rest := by
  apply Gives.skipSpace_bind
  rw [List.cons_append, fill_gap] at filled
  cases formed with
  | ofBase base =>
    rw [base.memberEnd_eq, fill_append_eq_some] at filled
    obtain ⟨after, baseFilled, ended⟩ := filled
    rw [fill_gap, fill_notBefore_eq_some, skip_skip] at ended
    -- Without a name neither an `AS` nor a name follows.
    obtain ⟨avoids, same⟩ := ended
    obtain rfl := Option.some.inj same
    refine (unnamedSource_gives complete base baseFilled).bind ?_
    apply Gives.skipSpace_bind
    apply Gives.eatKeyword_missed
    · exact avoids.mono fun lexeme same => by simp [Lexeme.namesSource, beq_iff_eq.1 same]
    apply Gives.accept_missed fun lexeme => lexeme.name?.isSome
    · intro token
      rw [token.name?_eq]
    · rfl
    · exact avoids.mono fun lexeme named => by simp [Lexeme.namesSource, named]
    exact Gives.pure
  | aliasAs base named =>
    rw [Node.memberEnd_aliasAs, List.append_nil, Node.sourceSlots, fill_append_eq_some] at filled
    obtain ⟨after, baseFilled, following⟩ := filled
    rw [fill_gap, fill_token_eq_some] at following
    obtain ⟨inside, shape, following⟩ := following
    rw [fill_gap, fill_token_eq_some] at following
    obtain ⟨others, nameShape, same⟩ := following
    obtain rfl := Option.some.inj same
    refine (unnamedSource_gives complete base baseFilled).bind ?_
    apply Gives.skipSpace_bind
    rw [shape]
    -- After an `AS` the name is required.
    apply Gives.eatKeyword_met
    apply Gives.skipSpace_bind
    rw [nameShape, named.ofText_eq]
    exact Gives.requireIdentifier_bind Gives.pure
  | @aliasBare inner name base named =>
    rw [Node.memberEnd_aliasBare, List.append_nil, Node.sourceSlots, fill_append_eq_some] at filled
    obtain ⟨after, baseFilled, following⟩ := filled
    rw [fill_gap, fill_token_eq_some, named.ofText_eq] at following
    obtain ⟨others, shape, same⟩ := following
    obtain rfl := Option.some.inj same
    refine (unnamedSource_gives complete base baseFilled).bind ?_
    apply Gives.skipSpace_bind
    rw [shape]
    -- Without an `AS` the name is taken if it is there.
    apply Gives.eatKeyword_missed (by simp)
    apply Gives.accept_met
    intro token shown
    refine ⟨name, ?_, Gives.pure⟩
    rw [token.name?_eq, shown]
    rfl

/-- A source is given if the joins after it are: its own joins are read one by one. -/
theorem source_of_joins (complete : inner.Complete) {final : Node} :
    ∀ (node : Node) (after : List Lexeme), SourceFormed .source node →
      fill (.gap :: node.sourceSlots ++ node.memberEnd) lexemes = some after →
      (∀ bound, Gives (joins inner bound node) after final rest) →
      Gives (source inner) lexemes final rest := by
  intro node after formed filled gives
  -- The recursion goes down the left side, since the joins are read from left to right.
  cases formed with
  | ofMember member => exact (joined_gives complete member filled).bind (gives inner.bound)
  | @join kind left right condition before member under =>
    rw [Node.memberEnd_join, List.append_nil, Node.sourceSlots] at filled
    simp only [List.append_assoc, List.cons_append] at filled
    rw [← List.append_assoc, ← List.cons_append, fill_append_eq_some] at filled
    obtain ⟨middle, leftFilled, filled⟩ := filled
    -- The left side comes first, and this join is the first after it.
    refine source_of_joins complete left middle before leftFilled ?_
    intro bound
    cases bound with
    | zero => exact Gives.exhausted
    | succ bound =>
      rw [fill_gap, fill_append_eq_some] at filled
      obtain ⟨stop, wordsFilled, filled⟩ := filled
      -- One round reads the words, the right side and the condition, and leaves the rest to the
      -- next.
      obtain ⟨lexeme, first, inside, shape, begins, wordsGive⟩ := joinWords_gives wordsFilled
      rw [← List.append_assoc, ← List.cons_append, fill_append_eq_some] at filled
      obtain ⟨middle', rightFilled, filled⟩ := filled
      rw [fill_gap] at filled
      obtain ⟨conditionGives, _⟩ := clause_gives skip_skip
        (fun node isCondition _ _ held =>
          ⟨complete.expression ⟨under node isCondition, held⟩, flush_of_pad held⟩) filled
      apply Gives.skipSpace_bind
      rw [shape]
      apply Gives.accept_met
      intro token shown
      refine ⟨first, ?_, ?_⟩
      · rw [token.joinKind?_eq, shown]
        exact begins
      · refine wordsGive.bind ?_
        refine (joined_gives complete member rightFilled).bind ?_
        apply Gives.skipSpace_bind
        refine conditionGives.bind ?_
        exact gives bound

/-- A source is given where its spelling is filled. -/
theorem source_gives (complete : inner.Complete) (spells : SpellsSource lexemes node rest) :
    Gives (source inner) lexemes node rest := by
  obtain ⟨formed, filled⟩ := spells
  rw [Node.paddedSource, padSource, fill_append_eq_some] at filled
  obtain ⟨after, nodeFilled, ended⟩ := filled
  rw [fill_gap, fill_notBefore_eq_some, skip_skip] at ended
  obtain ⟨noJoin, same⟩ := ended
  obtain rfl := Option.some.inj same
  refine source_of_joins complete node after formed nodeFilled ?_
  -- After the last join no word of another follows, so the loop ends.
  intro bound
  cases bound with
  | zero => exact Gives.exhausted
  | succ bound =>
    apply Gives.skipSpace_bind
    apply Gives.accept_missed fun lexeme => lexeme.joinKind?.isSome
    · intro token
      rw [token.joinKind?_eq]
    · rfl
    · exact noJoin
    · exact Gives.pure

end Sources

/-- Rules tied up to any bound give every tree, unless they give up. -/
theorem rules_complete (bound : Nat) : (rules bound : Rules Lexer).Complete := by
  -- The induction is on the bound on nesting: the rules of one bound ask those of the one before.
  induction bound with
  | zero => exact ⟨fun _ => Gives.exhausted, fun _ => Gives.exhausted, fun _ => Gives.exhausted⟩
  | succ bound ih => exact ⟨expression_gives ih, operand_gives ih, source_gives ih⟩

end Grammar

end SelectSql
