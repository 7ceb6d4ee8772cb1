import SelectSql.Grammar.Nesting
import SelectSql.Proofs.Reading.Expression

/-!
What is read as a source or a statement is one, and fills its spelling. A clause that is absent was
looked for where it would have stood, which is why it does not follow.
-/

namespace SelectSql

variable {lexemes rest before : List Lexeme} {node left : Node}

/-- A lexeme that spells a direction is its one keyword. -/
theorem Lexeme.direction?_eq_some {lexeme : Lexeme} {option : SortOption}
    (spelled : lexeme.direction? = some option) :
    option.isPlace = false ∧ keywordSlots option.keywords = [.token lexeme] := by
  unfold direction? at spelled
  split at spelled
  · obtain rfl := Option.some.inj spelled
    exact ⟨rfl, rfl⟩
  · obtain rfl := Option.some.inj spelled
    exact ⟨rfl, rfl⟩
  · cases spelled

/-- A lexeme that spells a place of nulls is the second of its two keywords. -/
theorem Lexeme.nullsPlace?_eq_some {lexeme : Lexeme} {option : SortOption}
    (spelled : lexeme.nullsPlace? = some option) :
    option.isPlace = true ∧
      keywordSlots option.keywords = [.keyword .nulls, .gap, .token lexeme] := by
  unfold nullsPlace? at spelled
  split at spelled
  · obtain rfl := Option.some.inj spelled
    exact ⟨rfl, rfl⟩
  · obtain rfl := Option.some.inj spelled
    exact ⟨rfl, rfl⟩
  · cases spelled

/-- The kinds of join that a first word alone may stand for, each with that word. -/
theorem Lexeme.joinKind?_eq_some {lexeme : Lexeme} {kind : JoinKind}
    (begins : lexeme.joinKind? = some kind) :
    (lexeme, kind) ∈ [(.keyword .join, .plain), (.keyword .inner, .inner),
      (.keyword .cross, .cross), (.keyword .left, .left), (.keyword .right, .right),
      (.keyword .full, JoinKind.fullOuter)] := by
  unfold joinKind? at begins
  split at begins
  all_goals cases begins <;> simp

namespace Grammar

open Parsing

variable {inner : Rules Lexer}

section Clauses

/-- A projection fills its spelling, and a comma that touches it goes on with the list. -/
theorem projection_reads (sound : inner.Sound) (lexemes : List Lexeme) :
    Reads (projection inner) lexemes fun node rest =>
      Projected node ∧ fill node.projectionSlots lexemes = some rest ∧
        (Avoids (· == .mark .comma) rest → fill node.projectionEnd rest = some rest) := by
  refine (sound.flush lexemes).bind ?_
  rintro node rest ⟨formed, filled, flush⟩
  apply Reads.eatKeyword_bind
  · -- A name ends the projection. No space is skipped after it, so only a comma that touches it
    -- goes on.
    rintro inside rfl
    apply Reads.skipSpace_bind
    apply Reads.requireIdentifier_bind
    intro name rest shape named
    refine Reads.pure ⟨.named formed named, ?_, ?_⟩
    · rw [Node.projectionSlots, fill_append_of filled, fill_token, fill_gap, shape, named.ofText_eq,
        fill_token, fill_nil]
    · intro noComma
      rw [Node.projectionEnd, fill_notTouching noComma, fill_nil]
  · -- Without a name, space has been skipped, and neither an `AS` nor, at the end of the list, a
    -- comma follows.
    intro noAs
    obtain ⟨slots, ending⟩ := formed.projectionSlots_eq
    refine Reads.pure ⟨.plain formed, ?_, ?_⟩
    · rw [slots, fill_append_of filled, fill_notBefore (by rwa [flush]), fill_nil]
    · intro noComma
      rw [ending, SelectSql.noComma, fill_notBefore (by rwa [flush]), fill_nil]

/-- Projections fill their spelling, and without any a clause or the end must follow. -/
theorem projections?_reads (sound : inner.Sound) (flush : skip lexemes = lexemes) :
    Reads (projections? inner) lexemes fun items rest =>
      (∀ nodes ∈ items, nodes ≠ [] ∧ ∀ node ∈ nodes, Projected node) ∧
        fill (projectionSlots items) lexemes = some rest ∧ skip rest = rest := by
  apply Reads.peek_bind
  intro token seen
  -- The next token tells whether there are projections, and it is not taken.
  split
  · rename_i stops
    refine Reads.pure ⟨nofun, ?_, flush⟩
    have avoids : Avoids (fun lexeme => lexeme != .keyword .from_ && lexeme != .keyword .where_)
        (skip lexemes) := by
      rw [flush]
      rcases seen with ⟨real, first⟩ | ⟨_, rfl⟩
      · intro lexeme head
        rw [Option.mem_def, first] at head
        obtain rfl := Option.some.inj head
        rw [real, token.isKeyword_eq, token.isKeyword_eq, Bool.or_false, Bool.or_eq_true,
          beq_iff_eq, beq_iff_eq] at stops
        rcases stops with same | same <;> simp [same]
      · exact avoids_nil
    -- No slot but the one that says what comes next.
    rw [projectionSlots, fill_notBefore avoids, fill_nil]
  · refine (Reads.separated (projection_reads sound) _ lexemes).bind ?_
    rintro nodes rest ⟨projected, filled, avoids, last, isLast, ending⟩
    apply Reads.skipSpace_bind
    -- A list that is read has a last item, whose ending closes the list.
    have nonempty : nodes ≠ [] := by
      rintro rfl
      cases isLast
    refine Reads.pure ⟨?_, ?_, skip_skip⟩
    · intro others same
      obtain rfl := Option.some.inj same
      exact ⟨nonempty, projected⟩
    · rw [projectionSlots, isLast, Option.map_some, Option.getD_some,
        commaSlots_append (by simpa using nonempty), List.append_assoc, fill_append_of filled,
        fill_append_of (ending avoids), fill_gap, fill_nil]

/-- A place of nulls fills its spelling, of which the `NULLS` has been taken. -/
theorem place_reads (lexemes : List Lexeme) :
    Reads (do
      skipSpace
      require .nullsPlace Token.nullsPlace?) lexemes fun option rest =>
        option.isPlace = true ∧
          fill (keywordSlots option.keywords) (.keyword .nulls :: lexemes) = some rest := by
  apply Reads.skipSpace_bind
  -- The rule ends in the requirement, so nothing is asked after it.
  rw [← bind_pure (require _ _)]
  apply Reads.require_bind Lexeme.nullsPlace? Token.nullsPlace?_eq rfl
  intro lexeme option rest shape spelled
  obtain ⟨isPlace, slots⟩ := Lexeme.nullsPlace?_eq_some spelled
  refine Reads.pure ⟨isPlace, ?_⟩
  rw [slots, fill_token, fill_gap, shape, fill_token, fill_nil]

/-- A sort key fills its spelling, modifiers included. -/
theorem sortKey_reads (sound : inner.Sound) (lexemes : List Lexeme) :
    Reads (sortKey inner) lexemes fun key rest =>
      (Formed .expression key.key ∧ SortOption.Ordered key.options) ∧
        fill key.slots lexemes = some rest ∧ skip rest = rest := by
  refine (sound.flush lexemes).bind ?_
  rintro node middle ⟨formed, filled, flush⟩
  -- What follows the direction is read alike whether or not one is written.
  have places : ∀ (direction : Option SortOption) (after : List Lexeme),
      (∀ option ∈ direction, option.isPlace = false) →
      fill (direction.toList.flatMap fun option => keywordSlots option.keywords ++ [.gap]) middle =
        some (skip after) →
      (direction = none → Avoids (·.direction?.isSome) (skip after)) →
      Reads (do
        skipSpace
        let nulls ← after? .nulls do
          skipSpace
          require .nullsPlace Token.nullsPlace?
        skipSpace
        return (⟨node, direction.toList ++ nulls.toList⟩ : SortKey)) after fun key rest =>
          (Formed .expression key.key ∧ SortOption.Ordered key.options) ∧
            fill key.slots lexemes = some rest ∧ skip rest = rest := by
    -- The place is optional too, and what may not follow depends on which of the two are there.
    intro direction after noPlace directionFilled noDirection
    apply Reads.skipSpace_bind
    refine (Reads.after? fun inside _ => place_reads inside).bind ?_
    intro nulls rest found
    apply Reads.skipSpace_bind
    have place : (∀ option ∈ nulls, option.isPlace = true) ∧
        fill (nulls.toList.flatMap fun option => keywordSlots option.keywords ++ [.gap])
          (skip after) = some (skip rest) ∧
        Avoids (SortOption.goesOn (direction.toList ++ nulls.toList)) (skip rest) := by
      cases nulls with
      -- Neither a place nor, without a direction, a direction was found.
      | none =>
        obtain ⟨rfl, noNulls⟩ := found
        rw [skip_skip]
        refine ⟨nofun, rfl, ?_⟩
        intro lexeme first
        have noNulls := noNulls lexeme first
        cases direction with
        | none => simpa [SortOption.goesOn, noNulls] using noDirection rfl lexeme first
        -- After a place the key is complete, so nothing is ruled out.
        | some option => simp [SortOption.goesOn, noNulls]
      | some option =>
        obtain ⟨inside, shape, isPlace, placeFilled⟩ := found
        refine ⟨by simpa using isPlace, ?_, ?_⟩
        · rw [shape, Option.toList_some, List.flatMap_singleton, fill_append_of placeFilled,
            fill_gap, fill_nil]
        · intro lexeme _
          simp [SortOption.goesOn, isPlace]
    obtain ⟨isPlace, placeFilled, complete⟩ := place
    refine Reads.pure ⟨⟨formed, direction, nulls, rfl, noPlace, isPlace⟩, ?_, skip_skip⟩
    -- The key, its direction and its place fill their slots one after another.
    rw [SortKey.slots, List.append_assoc, fill_append_of filled, List.flatMap_append,
      List.append_assoc, fill_append_of directionFilled, fill_append_of placeFilled,
      fill_notBefore (by rwa [skip_skip]), fill_nil]
  apply Reads.accept_bind Lexeme.direction? Token.direction?_eq rfl
  · intro lexeme option inside shape spelled
    obtain ⟨noPlace, slots⟩ := Lexeme.direction?_eq_some spelled
    refine places (some option) inside (by simpa using noPlace) ?_ nofun
    rw [shape]
    simp [slots]
  · intro none
    refine places Option.none middle nofun (by simp [flush]) ?_
    intro _ lexeme first
    rw [flush] at first
    simp [none lexeme first]

/-- The value of a `LIMIT` or `OFFSET` fills its spelling. -/
theorem rowCount_reads (sound : inner.Sound) (lexemes : List Lexeme) :
    Reads (rowCount inner) lexemes fun node rest =>
      Formed .atom node ∧ fill (rowCountSlots node) lexemes = some rest ∧ skip rest = rest := by
  apply Reads.skipSpace_bind
  refine (atom_reads sound _).bind ?_
  rintro node rest ⟨formed, filled⟩
  apply Reads.skipSpace_bind
  refine Reads.pure ⟨formed, ?_, skip_skip⟩
  rw [rowCountSlots, List.cons_append, fill_gap, fill_append_of filled, fill_gap, fill_nil]

/-- The list of a `GROUP` or `ORDER` fills its spelling. -/
theorem byList_reads {α : Type} {item : Parsing Lexer α} {good : α → Prop}
    {slots : α → List Slot}
    (each : ∀ lexemes, Reads item lexemes fun value rest =>
      good value ∧ fill (slots value) lexemes = some rest ∧ skip rest = rest)
    (lexemes : List Lexeme) :
    Reads (byList inner item) lexemes fun values rest =>
      (values ≠ [] ∧ ∀ value ∈ values, good value) ∧
        fill (byListSlots (values.map slots)) lexemes = some rest ∧ skip rest = rest := by
  apply Reads.skipSpace_bind
  apply Reads.requireKeyword_bind
  intro inside shape
  refine (Reads.commaList each _ inside).mono ?_
  rintro values rest ⟨good, filled, flush⟩
  refine ⟨good, ?_, flush⟩
  rw [byListSlots, fill_gap, shape, fill_token]
  exact filled

/-- A clause fills its spelling, and one that is absent does not follow. -/
theorem clause_reads {α : Type} {word : Keyword} {item : Parsing Lexer α} {good : α → Prop}
    {slots : α → List Slot}
    (each : ∀ lexemes, Reads item lexemes fun value rest =>
      good value ∧ fill (slots value) lexemes = some rest ∧ skip rest = rest)
    (flush : skip lexemes = lexemes) :
    Reads (after? word item) lexemes fun found rest =>
      (∀ value ∈ found, good value) ∧
        fill (clauseSlots word (found.map slots)) lexemes = some rest ∧ skip rest = rest := by
  refine (Reads.after? fun inside _ => each inside).mono ?_
  intro found rest outcome
  cases found with
  -- The keyword was looked for and is not there, as the slot of an absent clause says.
  | none =>
    obtain ⟨rfl, avoids⟩ := outcome
    refine ⟨nofun, ?_, flush⟩
    rw [Option.map_none, clauseSlots, fill_notBefore (by rwa [flush]), fill_nil]
  | some value =>
    obtain ⟨inside, rfl, holds, filled, flush⟩ := outcome
    refine ⟨by simpa using holds, ?_, flush⟩
    rw [Option.map_some, clauseSlots, fill_token]
    exact filled

/-- A source leaves no white space behind. -/
theorem source_flush (sound : inner.Sound) (lexemes : List Lexeme) :
    Reads inner.source lexemes fun node rest => SourceFormed .source node ∧
      fill node.paddedSource lexemes = some rest ∧ skip rest = rest := by
  refine (sound.source lexemes).mono ?_
  rintro node rest ⟨formed, filled⟩
  refine ⟨formed, filled, ?_⟩
  -- The spelling of a source ends in the gap that its loop of joins has skipped.
  rw [Node.paddedSource, padSource, fill_append_eq_some] at filled
  obtain ⟨after, _, ending⟩ := filled
  rw [fill_gap, fill_notBefore_eq_some] at ending
  rw [← Option.some.inj ending.2, skip_skip]

/-- A statement fills its spelling, clause by clause. -/
theorem select_reads (sound : inner.Sound) (lexemes : List Lexeme) :
    Reads (select inner) lexemes fun statement rest =>
      SelectFormed statement ∧ fill statement.slots lexemes = some rest := by
  apply Reads.requireKeyword_bind
  rintro inside rfl
  apply Reads.skipSpace_bind
  -- The clauses are read alike whether or not a `DISTINCT` comes before them.
  have clauses : ∀ (distinct : Bool) (after : List Lexeme),
      fill (if distinct then [.keyword .distinct] else [.notBefore (· == .keyword .distinct)])
        (skip inside) = some after →
      Reads (do
        skipSpace
        let projections ← projections? inner
        let sources ← after? .from_ (separated inner.source inner.bound)
        let filter ← after? .where_ inner.expression
        let groupBy ← after? .group (byList inner inner.expression)
        let orderBy ← after? .order (byList inner (sortKey inner))
        let limit ← after? .limit (rowCount inner)
        let offset ← after? .offset (rowCount inner)
        return ({ distinct, projections, sources, filter, groupBy, orderBy, limit, offset }
          : Select)) after fun statement rest =>
            SelectFormed statement ∧
              fill statement.slots (.keyword .select :: inside) = some rest := by
    intro distinct after begun
    apply Reads.skipSpace_bind
    -- Each clause is read where the one before it has left no white space.
    refine (projections?_reads sound skip_skip).bind ?_
    rintro projections one ⟨projected, projectionsFilled, flush⟩
    refine (clause_reads (Reads.commaList (source_flush sound) _) flush).bind ?_
    rintro sources two ⟨sourcesFormed, sourcesFilled, flush⟩
    refine (clause_reads sound.flush flush).bind ?_
    rintro filter three ⟨filterFormed, filterFilled, flush⟩
    refine (clause_reads (byList_reads sound.flush) flush).bind ?_
    rintro groupBy four ⟨groupFormed, groupFilled, flush⟩
    refine (clause_reads (byList_reads (sortKey_reads sound)) flush).bind ?_
    rintro orderBy five ⟨orderFormed, orderFilled, flush⟩
    refine (clause_reads (rowCount_reads sound) flush).bind ?_
    rintro limit six ⟨limitFormed, limitFilled, flush⟩
    refine (clause_reads (rowCount_reads sound) flush).bind ?_
    rintro offset seven ⟨offsetFormed, offsetFilled, _⟩
    refine Reads.pure ⟨.clauses projected (fun nodes member => (sourcesFormed nodes member).1)
      (fun nodes member => (sourcesFormed nodes member).2) filterFormed groupFormed orderFormed
      limitFormed offsetFormed, ?_⟩
    rw [Select.slots_eq, fill_token, fill_gap, fill_append_of begun, fill_gap,
      fill_append_of projectionsFilled, fill_append_of sourcesFilled, fill_append_of filterFilled,
      fill_append_of groupFilled, fill_append_of orderFilled, fill_append_of limitFilled,
      offsetFilled]
  apply Reads.eatKeyword_bind
  · intro after shape
    refine clauses true after ?_
    rw [if_pos rfl, shape, fill_token, fill_nil]
  · intro noDistinct
    refine clauses false (skip inside) ?_
    rw [if_neg (by decide), fill_notBefore (by rwa [skip_skip]), fill_nil]

end Clauses

section Sources

/-- A keyword and what follows it after white space. -/
private theorem fill_keywords {word next : Keyword} {words : List Keyword} :
    fill (keywordSlots (word :: next :: words)) (.keyword word :: lexemes) =
      fill (keywordSlots (next :: words)) (skip lexemes) := by
  rw [keywordSlots, fill_token, fill_gap]

/-- The words of a join after the first fill their spelling. -/
theorem joinWords_reads {lexeme : Lexeme} {first : JoinKind}
    (begins : lexeme.joinKind? = some first) (lexemes : List Lexeme) :
    Reads (joinWords first) lexemes fun kind rest =>
      fill (keywordSlots (kind.keywords ++ [.join])) (lexeme :: lexemes) = some rest := by
  -- Once the words before it are taken, the `JOIN` is required.
  have join : ∀ (kind : JoinKind) (after : List Lexeme),
      fill (keywordSlots (kind.keywords ++ [.join])) (lexeme :: lexemes) =
        fill (keywordSlots [.join]) (skip after) →
      Reads (do
        skipSpace
        requireKeyword .join
        return kind) after fun kind rest =>
          fill (keywordSlots (kind.keywords ++ [.join])) (lexeme :: lexemes) = some rest := by
    intro kind after reached
    apply Reads.skipSpace_bind
    apply Reads.requireKeyword_bind
    intro rest shape
    apply Reads.pure
    rw [reached, shape, keywordSlots, fill_token, fill_nil]
  have member := Lexeme.joinKind?_eq_some begins
  simp only [List.mem_cons, Prod.mk.injEq, List.not_mem_nil, or_false] at member
  -- Each first word has its own way to the `JOIN`; only sides and full joins look for an `OUTER`.
  rcases member with ⟨rfl, rfl⟩ | ⟨rfl, rfl⟩ | ⟨rfl, rfl⟩ | ⟨rfl, rfl⟩ | ⟨rfl, rfl⟩ | ⟨rfl, rfl⟩
  · -- A plain join is the `JOIN` itself.
    exact Reads.pure fill_token
  · apply Reads.skipSpace_bind
    exact join .inner (skip lexemes) (by rw [skip_skip]; exact fill_keywords)
  · apply Reads.skipSpace_bind
    exact join .cross (skip lexemes) (by rw [skip_skip]; exact fill_keywords)
  · apply Reads.skipSpace_bind
    rw [outer, bind_assoc]
    apply Reads.eatKeyword_bind
    · intro inside shape
      apply join .leftOuter inside
      show fill (keywordSlots [.left, .outer, .join]) _ = _
      rw [fill_keywords, shape, fill_keywords]
    · intro _
      exact join .left (skip lexemes) (by rw [skip_skip]; exact fill_keywords)
  · apply Reads.skipSpace_bind
    rw [outer, bind_assoc]
    apply Reads.eatKeyword_bind
    · intro inside shape
      apply join .rightOuter inside
      show fill (keywordSlots [.right, .outer, .join]) _ = _
      rw [fill_keywords, shape, fill_keywords]
    · intro _
      exact join .right (skip lexemes) (by rw [skip_skip]; exact fill_keywords)
  · apply Reads.skipSpace_bind
    rw [outer, bind_assoc]
    apply Reads.requireKeyword_bind
    intro inside shape
    apply join .fullOuter inside
    -- A full join requires its `OUTER`, so there is no second way.
    show fill (keywordSlots [.full, .outer, .join]) _ = _
    rw [fill_keywords, shape, fill_keywords]

/-- The name of a table fills its spelling. -/
theorem tableName_reads (lexemes : List Lexeme) :
    Reads tableName lexemes fun node rest =>
      SourceFormed .base node ∧ fill node.sourceSlots lexemes = some rest := by
  apply Reads.requireIdentifier_bind
  rintro first rest rfl isFirst
  apply Reads.eatMark_bind
  · rintro inside rfl
    apply Reads.requireIdentifier_bind
    rintro second rest rfl isSecond
    refine Reads.pure ⟨.qualified isFirst isSecond, ?_⟩
    rw [Node.sourceSlots, isFirst.ofText_eq, isSecond.ofText_eq, fill_token, fill_token, fill_token,
      fill_nil]
  · -- A plain name does not touch a dot.
    intro noDot
    refine Reads.pure ⟨.table isFirst, ?_⟩
    rw [Node.sourceSlots, isFirst.ofText_eq, fill_token, fill_notTouching noDot, fill_nil]

/-- A source without its name fills its spelling. -/
theorem unnamedSource_reads (sound : inner.Sound) (lexemes : List Lexeme) :
    Reads (unnamedSource inner) lexemes fun node rest =>
      SourceFormed .base node ∧ fill node.sourceSlots lexemes = some rest := by
  apply Reads.eatMark_bind
  · rintro inside rfl
    apply Reads.reshape
    refine (sound.source inside).closedBy.mono ?_
    rintro node rest ⟨formed, filled⟩
    refine ⟨.parens formed, ?_⟩
    rw [Node.sourceSlots, List.cons_append, fill_token]
    exact (fill_append_of filled).trans (by rw [fill_token, fill_nil])
  · intro _
    apply Reads.peek_bind
    intro token _
    -- A `SELECT` needs no parentheses here, and anything else has to be a name.
    split
    · apply Reads.reshape
      refine (select_reads sound lexemes).mono ?_
      rintro statement rest ⟨formed, filled⟩
      exact ⟨.select formed, filled⟩
    · exact tableName_reads lexemes

/-- A member of a join fills its spelling, and without a name none follows. -/
theorem joined_reads (sound : inner.Sound) (lexemes : List Lexeme) :
    Reads (joined inner) lexemes fun node rest => SourceFormed .member node ∧
      fill (.gap :: node.sourceSlots ++ node.memberEnd) lexemes = some rest := by
  apply Reads.skipSpace_bind
  refine (unnamedSource_reads sound _).bind ?_
  rintro base after ⟨formed, filled⟩
  apply Reads.skipSpace_bind
  apply Reads.eatKeyword_bind
  · -- After an `AS` a name is required.
    intro inside shape
    apply Reads.skipSpace_bind
    apply Reads.requireIdentifier_bind
    intro name rest named isName
    refine Reads.pure ⟨.aliasAs formed isName, ?_⟩
    rw [Node.sourceSlots, Node.memberEnd_aliasAs, List.append_nil, fill_gap,
      fill_append_of filled, fill_gap, shape, fill_token, fill_gap, named, isName.ofText_eq,
      fill_token, fill_nil]
  · -- A bare name is a lexeme by itself, so its being admitted comes from the proper lexemes.
    intro noAs
    apply Reads.of_proper
    intro proper
    apply Reads.accept_bind Lexeme.name? Token.name?_eq rfl
    · intro lexeme name rest shape named
      have lexemeName : lexeme = .name name := by
        cases lexeme with
        | name text => rw [Option.some.inj named]
        | _ => cases named
      subst lexemeName
      rw [shape] at proper
      have isName : IsName name := proper.1
      refine Reads.pure ⟨.aliasBare formed isName, ?_⟩
      rw [Node.sourceSlots, Node.memberEnd_aliasBare, List.append_nil, fill_gap,
        fill_append_of filled, fill_gap, shape, isName.ofText_eq, fill_token, fill_nil]
    · intro noName
      refine Reads.pure ⟨.ofBase formed, ?_⟩
      -- Neither an `AS` nor a name follows, which is how a source without a name is told.
      have unnamed : Avoids Lexeme.namesSource (skip after) := by
        apply noAs.or
        intro lexeme first
        simp [noName lexeme first]
      rw [formed.memberEnd_eq, List.cons_append, fill_gap, fill_append_of filled, fill_gap,
        fill_notBefore (by rwa [skip_skip]), fill_nil]

/-- A source and the joins after it fill the spelling of what they make. -/
theorem joins_reads (sound : inner.Sound) (bound : Nat) :
    ∀ (left : Node) (lexemes : List Lexeme), SourceFormed .source left →
      fill (.gap :: left.sourceSlots ++ left.memberEnd) before = some lexemes →
      Reads (joins inner bound left) lexemes (SpellsSource before) := by
  -- The induction is on the bound. What varies is the left side, which takes in one join after
  -- another, and the lexemes `before` stay those at the start.
  induction bound with
  | zero =>
    intro left lexemes _ _
    exact Reads.exhausted
  | succ bound ih =>
    intro left lexemes formed filled
    apply Reads.skipSpace_bind
    apply Reads.accept_bind Lexeme.joinKind? Token.joinKind?_eq rfl
    · intro lexeme first inside shape begins
      refine (joinWords_reads begins inside).bind ?_
      intro kind after wordsFilled
      refine (joined_reads sound after).bind ?_
      rintro right middle ⟨rightFormed, rightFilled⟩
      apply Reads.skipSpace_bind
      refine (clause_reads sound.flush skip_skip).bind ?_
      rintro condition rest ⟨conditionFormed, conditionFilled, flush⟩
      refine ih (.join kind left right condition) rest (.join formed rightFormed conditionFormed) ?_
      -- The new left side is spelled by the old one, the words, the right side and the condition.
      rw [Node.sourceSlots, Node.memberEnd_join, List.append_nil]
      simp only [List.cons_append, List.append_assoc, fill_gap] at filled rightFilled ⊢
      rw [← List.append_assoc, fill_append_of filled, fill_gap, shape, fill_append_of wordsFilled,
        fill_gap, ← List.append_assoc, fill_append_of rightFilled, fill_gap]
      exact conditionFilled
    · intro noJoin
      refine Reads.pure ⟨formed, ?_⟩
      -- No join is left over, so the source ends here.
      have complete : Avoids (·.joinKind?.isSome) (skip lexemes) := by
        intro lexeme first
        simp [noJoin lexeme first]
      rw [Node.paddedSource, padSource, fill_append_of filled, fill_gap,
        fill_notBefore (by rwa [skip_skip]), fill_nil]

/-- A source fills its spelling. -/
theorem source_reads (sound : inner.Sound) (lexemes : List Lexeme) :
    Reads (source inner) lexemes (SpellsSource lexemes) := by
  refine (joined_reads sound lexemes).bind ?_
  rintro node rest ⟨formed, filled⟩
  exact joins_reads sound _ node rest (.ofMember formed) filled

end Sources

/-- Rules tied up to any bound give what they have read. -/
theorem rules_sound (bound : Nat) : (rules bound : Rules Lexer).Sound := by
  -- Each level rests on the level below, which has read the nested text.
  induction bound with
  | zero => exact ⟨fun _ => Reads.exhausted, fun _ => Reads.exhausted, fun _ => Reads.exhausted⟩
  | succ bound ih => exact ⟨expression_reads ih, operand_reads ih, source_reads ih⟩

end Grammar

end SelectSql
