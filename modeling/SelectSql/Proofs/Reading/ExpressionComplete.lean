import SelectSql.Proofs.Reading.Expression
import SelectSql.Proofs.Reading.Gives

/-!
Every expression is read back from lexemes that fill its spelling. The looks ahead of the spelling
say that no rule goes on where the tree stops.
-/

namespace SelectSql

variable {lexemes before after middle rest : List Lexeme} {node value left : Node}

/-- Nested rules that give every tree whose spelling is filled. -/
structure Grammar.Rules.Complete (inner : Grammar.Rules Lexer) : Prop where
  /-- Expressions are given. -/
  expression : ∀ {lexemes node rest}, Spells .expression lexemes node rest →
    Gives inner.expression lexemes node rest
  /-- Operands are given. -/
  operand : ∀ {lexemes node rest}, Spells .operand lexemes node rest →
    Gives inner.operand lexemes node rest
  /-- Sources are given. -/
  source : ∀ {lexemes node rest}, SpellsSource lexemes node rest →
    Gives inner.source lexemes node rest

namespace Grammar

open Parsing

variable {inner : Rules Lexer}

/-- A list of expressions is given where its spelling is filled. -/
theorem separated_gives (complete : inner.Complete) {bound : Nat} {nodes : List Node}
    (nonempty : nodes ≠ []) (formed : ∀ node ∈ nodes, Formed .expression node)
    (filled : fill (commaSlots noComma (nodes.map (Node.padded .expression))) lexemes = some rest) :
    Gives (separated inner.expression bound) lexemes nodes rest := by
  -- Expressions take the white space after them.
  refine Gives.commaList ?_ ?_ nonempty formed filled
  · intro node lexemes rest formed filled
    exact complete.expression ⟨formed, filled⟩
  · intro node lexemes rest filled
    exact flush_of_pad filled

section Atoms

/-- Arguments are given where their spelling is filled and the parenthesis closes. -/
theorem arguments_gives (complete : inner.Complete) {nodes : List Node}
    (formed : ∀ node ∈ nodes, Formed .expression node)
    (filled : fill (.gap :: commaSlots noComma (paddedAll nodes)) lexemes =
      some (.mark .closeParen :: rest)) :
    Gives (arguments inner) lexemes nodes (.mark .closeParen :: rest) := by
  rw [paddedAll_eq, fill_gap] at filled
  -- A look behind the parenthesis decides between a list and none.
  apply Gives.skipSpace_bind
  cases nodes with
  | nil =>
    -- Without arguments the closing parenthesis is next.
    rw [List.map_nil, commaSlots, fill_nil] at filled
    rw [Option.some.inj filled]
    apply Gives.peek_head rfl
    intro token _ closes
    rw [token.isMark_eq, closes, beq_self_eq_true, if_pos rfl]
    exact Gives.pure
  | cons node nodes =>
    have nodeFormed := formed node (by simp)
    have head : (skip lexemes).head? = some node.first := by
      rw [← skip_skip]
      cases nodes with
      | nil => exact nodeFormed.head?_of_padded filled
      | cons second others => exact nodeFormed.head?_of_padded filled
    apply Gives.peek_head head
    intro token _ first
    -- No expression begins with a closing parenthesis.
    have opens : node.first ≠ .mark .closeParen := by
      intro closes
      have starts := nodeFormed.starts
      rw [closes] at starts
      cases starts
    rw [token.isMark_eq, first, beq_eq_false_iff_ne.2 opens]
    exact separated_gives complete (by simp) formed filled

/-- Branches are given where their spelling is filled, and none follows. -/
theorem branches_gives (complete : inner.Complete) (bound : Nat) (branches : List Branch)
    (lexemes : List Lexeme) (nonempty : branches ≠ [])
    (conditions : ∀ branch ∈ branches, Formed .expression branch.condition)
    (results : ∀ branch ∈ branches, Formed .expression branch.result)
    (filled : fill (branchSlots branches) (.keyword .when :: lexemes) = some rest)
    (noMore : Avoids (· == .keyword .when) rest) :
    Gives (Grammar.branches inner bound) lexemes branches rest := by
  -- The induction is on the bound: the other branches have a smaller one. The first `WHEN` has been
  -- taken.
  induction bound generalizing branches lexemes with
  | zero => exact Gives.exhausted
  | succ bound ih =>
    cases branches with
    | nil => exact absurd rfl nonempty
    | cons branch others =>
      obtain ⟨condition, result⟩ := branch
      rw [branchSlots, fill_append_eq_some, Branch.slots_eq] at filled
      -- A branch is its condition, the `THEN`, and its result.
      obtain ⟨stop, branchFilled, othersFilled⟩ := filled
      rw [List.cons_append, fill_token, fill_append_eq_some] at branchFilled
      obtain ⟨then_, conditionFilled, following⟩ := branchFilled
      rw [fill_token_eq_some] at following
      obtain ⟨inside, rfl, resultFilled⟩ := following
      refine (complete.expression ⟨conditions _ (List.mem_cons_self ..), conditionFilled⟩).bind ?_
      apply Gives.requireKeyword_bind
      refine (complete.expression ⟨results _ (List.mem_cons_self ..), resultFilled⟩).bind ?_
      cases others with
      | nil =>
        rw [branchSlots, fill_nil] at othersFilled
        -- After the last branch no `WHEN` is met.
        obtain rfl := Option.some.inj othersFilled
        exact Gives.eatKeyword_missed noMore Gives.pure
      | cons second others =>
        -- Another branch begins with its `WHEN`, which is taken before the rule goes round again.
        have begun := othersFilled
        rw [branchSlots, Branch.slots_eq, List.cons_append, List.cons_append,
          fill_token_eq_some] at begun
        obtain ⟨next, rfl, _⟩ := begun
        apply Gives.eatKeyword_met
        refine (ih (second :: others) next (by simp) ?_ ?_ othersFilled).reshape rfl
        · intro branch member
          exact conditions branch (List.mem_cons_of_mem _ member)
        · intro branch member
          exact results branch (List.mem_cons_of_mem _ member)

/-- A subject is given where its spelling is filled, and none where a `WHEN` is next. -/
theorem subject?_gives (complete : inner.Complete) {subject : Option Node}
    (formed : ∀ node ∈ subject, Formed .expression node) (flush : skip lexemes = lexemes)
    (filled : fill (paddedOption [] subject) lexemes = some (.keyword .when :: rest)) :
    Gives (subject? inner) lexemes subject (.keyword .when :: rest) := by
  cases subject with
  | none =>
    -- Without a subject the `WHEN` is next, and nothing is read.
    rw [paddedOption, fill_nil] at filled
    rw [Option.some.inj filled]
    apply Gives.peek_head rfl
    intro token _ first
    rw [token.isKeyword_eq, first, beq_self_eq_true, if_pos rfl]
    exact Gives.pure
  | some node =>
    have nodeFormed := formed node rfl
    -- A subject is a whole expression, and its first lexeme is the one that is looked at.
    have filled : fill (node.padded .expression) lexemes = some (.keyword .when :: rest) := filled
    have head : lexemes.head? = some node.first := by
      rw [← List.append_nil (node.padded .expression)] at filled
      rw [← flush]
      exact nodeFormed.head?_of_padded filled
    apply Gives.peek_head head
    intro token _ first
    -- No expression begins with a `WHEN`.
    have noWhen : node.first ≠ .keyword .when := by
      intro isWhen
      have starts := nodeFormed.starts
      rw [isWhen] at starts
      cases starts
    rw [token.isKeyword_eq, first, beq_eq_false_iff_ne.2 noWhen]
    exact (complete.expression ⟨nodeFormed, filled⟩).reshape rfl

/-- A choice is given where its spelling is filled, of which the `CASE` has been taken. -/
theorem choice_gives (complete : inner.Complete) {subject : Option Node} {branches : List Branch}
    {otherwise : Option Node} (first : ∀ node ∈ subject, Formed .expression node)
    (nonempty : branches ≠ [])
    (conditions : ∀ branch ∈ branches, Formed .expression branch.condition)
    (results : ∀ branch ∈ branches, Formed .expression branch.result)
    (last : ∀ node ∈ otherwise, Formed .expression node)
    (filled : fill (.blank :: (paddedOption [] subject ++ (branchSlots branches ++
      (paddedOption [.keyword .else_] otherwise ++ [.keyword .end_])))) lexemes = some rest) :
    Gives (choice inner) lexemes (.case subject branches otherwise) rest := by
  rw [fill_blank_eq_some] at filled
  -- The white space after the `CASE` is required, and no more of it follows.
  obtain ⟨inside, rfl, filled⟩ := filled
  apply Gives.of_proper
  intro proper
  have flush := skip_eq_self (proper.2.1 rfl)
  rw [flush, fill_append_eq_some] at filled
  obtain ⟨begun, subjectFilled, filled⟩ := filled
  rw [fill_append_eq_some] at filled
  obtain ⟨between, branchesFilled, filled⟩ := filled
  -- There is a branch, so the subject ends before a `WHEN`.
  have when_ : ∃ others, begun = .keyword .when :: others := by
    cases branches with
    | nil => exact absurd rfl nonempty
    | cons branch others =>
      rw [branchSlots, Branch.slots_eq, List.cons_append, List.cons_append,
        fill_token_eq_some] at branchesFilled
      obtain ⟨others, shape, _⟩ := branchesFilled
      exact ⟨others, shape⟩
  obtain ⟨others, rfl⟩ := when_
  -- After the branches there is an `ELSE` or the `END`, neither of which is a `WHEN`.
  have ending : Avoids (· == .keyword .when) between ∧
      Gives (after? .else_ inner.expression) between otherwise (.keyword .end_ :: rest) := by
    cases otherwise with
    | none =>
      rw [paddedOption, List.nil_append, fill_token_eq_some] at filled
      obtain ⟨stop, rfl, same⟩ := filled
      rw [Option.some.inj same]
      exact ⟨by simp, Gives.after?_missed (by simp)⟩
    | some node =>
      rw [paddedOption, List.append_assoc, List.singleton_append, fill_token_eq_some] at filled
      obtain ⟨held, rfl, filled⟩ := filled
      rw [fill_concat_token] at filled
      exact ⟨by simp, Gives.after?_met (complete.expression ⟨last node rfl, filled⟩)⟩
  -- The parts are given one after the other, in the order of the spelling.
  apply Gives.require_bind
  · intro token same
    rw [token.isSpace_eq, same, beq_self_eq_true, if_pos rfl]
  refine (subject?_gives complete first flush subjectFilled).bind ?_
  apply Gives.requireKeyword_bind
  refine (branches_gives complete _ branches others nonempty conditions results branchesFilled
    ending.1).bind ?_
  refine ending.2.bind ?_
  apply Gives.requireKeyword_bind
  exact Gives.pure

/-- An atom that begins with a name is given where what the name begins is. -/
theorem atom_of_name {name : String} (named : IsName name)
    (follows : Gives (Grammar.named inner name) lexemes node rest) :
    Gives (atom inner) (.ofText name :: lexemes) node rest := by
  apply Gives.next_bind
  intro token shown
  -- The category of the token is that of names, and its text is the name.
  rw [named.ofText_eq] at shown
  obtain ⟨kind, spelled⟩ := token.kind_of_name shown
  rw [kind, spelled]
  exact follows

/-- An atom is given where its spelling is filled. -/
theorem atom_gives (complete : inner.Complete) (spells : SpellsAtom lexemes node rest) :
    Gives (atom inner) lexemes node rest := by
  obtain ⟨formed, filled⟩ := spells
  -- The first lexeme tells which kind of atom it is, and the cases follow the kinds.
  cases formed with
  | @literal text admitted =>
    rw [Node.spelling, fill_token_eq_some] at filled
    obtain ⟨inside, rfl, same⟩ := filled
    obtain rfl := Option.some.inj same
    apply Gives.next_bind
    intro token shown
    -- A literal text is that of a token, `NULL`, or the star.
    rcases admitted with literal | rfl | rfl
    · rw [literal.ofText_eq] at shown
      obtain ⟨kind, spelled⟩ := token.kind_of_literal shown
      rw [kind, spelled]
      exact Gives.pure
    · rw [token.kind_of_keyword shown]
      exact Gives.pure
    · simp only [token.kind_of_mark shown, token.isMark_eq, shown]
      exact Gives.pure
  | @reference name named =>
    rw [Node.spelling, fill_token_eq_some] at filled
    obtain ⟨inside, rfl, filled⟩ := filled
    rw [fill_notTouching_eq_some] at filled
    -- Behind a name there is neither a dot nor a parenthesis, or it would be read on.
    obtain ⟨avoids, same⟩ := filled
    obtain rfl := Option.some.inj same
    apply atom_of_name named
    -- The parenthesis of a call is looked for before the dot.
    apply Gives.eatMark_missed
    · exact avoids.mono fun lexeme same => by simp [Lexeme.extendsName, beq_iff_eq.1 same]
    apply Gives.eatMark_missed
    · exact avoids.mono fun lexeme same => by simp [Lexeme.extendsName, beq_iff_eq.1 same]
    exact Gives.pure
  | @member table name held named =>
    rw [Node.spelling, fill_token_eq_some] at filled
    obtain ⟨inside, rfl, filled⟩ := filled
    rw [fill_token_eq_some] at filled
    obtain ⟨inside, rfl, filled⟩ := filled
    rw [fill_token_eq_some] at filled
    obtain ⟨inside, rfl, same⟩ := filled
    obtain rfl := Option.some.inj same
    apply atom_of_name held
    apply Gives.eatMark_missed
    · simp
    apply Gives.eatMark_met
    apply Gives.require_bind
    · intro member shown
      rw [member.member?_eq, shown]
      rcases named with named | rfl
      · rw [named.ofText_eq]
        rfl
      · rfl
    exact Gives.pure
  | @call name arguments named each =>
    rw [Node.spelling, List.cons_append, fill_token_eq_some] at filled
    obtain ⟨inside, rfl, filled⟩ := filled
    rw [List.cons_append, fill_token_eq_some] at filled
    obtain ⟨inside, rfl, filled⟩ := filled
    -- What is between the parentheses ends before the closing one.
    rw [fill_concat_token] at filled
    apply atom_of_name named
    apply Gives.eatMark_met
    exact (arguments_gives complete each filled).closedBy.reshape rfl
  | @case subject branches otherwise first nonempty conditions results last =>
    rw [Node.spelling] at filled
    simp only [List.cons_append, List.append_assoc] at filled
    rw [fill_token_eq_some] at filled
    obtain ⟨inside, rfl, filled⟩ := filled
    apply Gives.next_bind
    intro token shown
    rw [token.kind_of_keyword shown]
    exact choice_gives complete first nonempty conditions results last filled
  | @parens inner held =>
    rw [Node.spelling, List.cons_append, fill_token_eq_some] at filled
    obtain ⟨inside, rfl, filled⟩ := filled
    rw [fill_concat_token] at filled
    apply Gives.next_bind
    intro token shown
    simp only [token.kind_of_mark shown, token.isMark_eq, shown]
    exact (complete.expression ⟨held, filled⟩).closedBy.reshape rfl

end Atoms

section Tiers

/-- An indexed value is given after the atom that it begins with. -/
theorem subscripted_gives (complete : inner.Complete) (spells : Spells .indexed before node rest) :
    ∃ value after, SpellsAtom (skip before) value after ∧
      Gives (subscripted inner value) (skip after) node rest := by
  obtain ⟨formed, filled⟩ := spells
  obtain ⟨after, nodeFilled, rfl, avoids⟩ := fill_pad_eq_some.1 filled
  cases formed with
  | ofAtom formed =>
    -- Without an index the value is the atom itself.
    refine ⟨node, after, ⟨formed, nodeFilled⟩, ?_⟩
    apply Gives.eatMark_missed
    · -- A bracket would join the atom on this tier, and nothing does.
      have tight : node.tier.rank < Tier.indexed.rank := Nat.lt_succ_of_le formed.tier_le
      exact avoids_joining (avoids.joins?_ne tight (Nat.le_refl _)) rfl
    · exact Gives.pure
  | @subscript value index base inside =>
    rw [Node.spelling, List.append_assoc, fill_append_eq_some] at nodeFilled
    obtain ⟨stop, valueFilled, following⟩ := nodeFilled
    rw [List.cons_append, fill_gap, List.cons_append, fill_token_eq_some] at following
    obtain ⟨held, shape, following⟩ := following
    rw [fill_concat_token] at following
    -- With an index the atom ends before the bracket.
    refine ⟨value, stop, ⟨base, valueFilled⟩, ?_⟩
    rw [shape]
    apply Gives.eatMark_met
    refine (complete.expression ⟨inside, following⟩).closedBy.bind ?_
    apply Gives.skipSpace_bind
    exact Gives.pure

/-- A suffixed value is given after the indexed one that it begins with. -/
theorem converted_gives (complete : inner.Complete) (spells : Spells .suffixed before node rest) :
    ∃ value middle, Spells .indexed before value middle ∧
      Gives (converted inner value) middle node rest := by
  obtain ⟨formed, filled⟩ := spells
  obtain ⟨after, nodeFilled, rfl, avoids⟩ := fill_pad_eq_some.1 filled
  cases formed with
  | ofIndexed formed =>
    -- Without a conversion the value is indexed already.
    refine ⟨node, skip after, ⟨formed, fill_pad nodeFilled ?_⟩, ?_⟩
    · exact avoids_takes_lower (by decide) avoids
    apply Gives.eatMark_missed
    · -- A double colon would join the value on this tier, and nothing does.
      have tight : node.tier.rank < Tier.suffixed.rank := Nat.lt_succ_of_le formed.tier_le
      exact avoids_joining (avoids.joins?_ne tight (Nat.le_refl _)) rfl
    · exact Gives.pure
  | @cast value target base type =>
    rw [Node.spelling, fill_append_eq_some] at nodeFilled
    obtain ⟨stop, valueFilled, following⟩ := nodeFilled
    rw [fill_gap, fill_token_eq_some] at following
    obtain ⟨held, shape, targetFilled⟩ := following
    rw [fill_gap] at targetFilled
    refine ⟨value, skip stop, ⟨base, fill_pad valueFilled ?_⟩, ?_⟩
    · -- The sign of the conversion is out of reach for an index.
      rw [shape]
      exact avoids_takes_beyond rfl (by decide)
    · rw [shape]
      apply Gives.eatMark_met
      apply Gives.skipSpace_bind
      -- The target is a single atom.
      refine (atom_gives complete ⟨type, targetFilled⟩).bind ?_
      apply Gives.skipSpace_bind
      exact Gives.pure

/-- An operand that begins with a suffixed value is given if what follows the value gives it. -/
theorem operand_of_suffixed (complete : inner.Complete)
    (spells : Spells .suffixed before value middle)
    (gives : Gives (do
      match ← accept? (Token.binaryOp? BinaryOp.isArithmetic) with
      | some op => return .binary value op (← inner.operand) false
      | none => return value) middle node rest) :
    Gives (operand inner) before node rest := by
  -- The value is read from the inside out: its atom, then an index, then a conversion.
  obtain ⟨indexed, afterIndex, indexedSpells, convertedGives⟩ := converted_gives complete spells
  obtain ⟨atom, afterAtom, atomSpells, subscriptedGives⟩ := subscripted_gives complete indexedSpells
  apply Gives.skipSpace_bind
  apply Gives.accept_missed fun lexeme => lexeme.unaryOp?.isSome
  · intro token
    rw [token.unaryOp?_eq]
  · rfl
  · -- No prefix operator begins an atom.
    intro lexeme first
    have head := atomSpells.1.head?_eq
      (show fill (atom.spelling ++ []) (skip before) = _ by
        rw [List.append_nil]
        exact atomSpells.2)
    rw [Option.mem_def, head] at first
    have none := atomSpells.1.unaryOp?_first
    rw [atomSpells.1.leading_eq_none (Nat.zero_le _), Option.some.inj first] at none
    show lexeme.unaryOp?.isSome = false
    rw [none]
    rfl
  refine (atom_gives complete atomSpells).bind ?_
  apply Gives.skipSpace_bind
  refine subscriptedGives.bind ?_
  refine convertedGives.bind ?_
  exact gives

/-- An operand is given where its spelling is filled. -/
theorem operand_gives (complete : inner.Complete) (spells : Spells .operand lexemes node rest) :
    Gives (operand inner) lexemes node rest := by
  obtain ⟨formed, filled⟩ := spells
  obtain ⟨after, nodeFilled, rfl, avoids⟩ := fill_pad_eq_some.1 filled
  cases formed with
  | ofSuffixed formed =>
    -- A suffixed value stands alone, since no sign of arithmetic follows it.
    have tight : node.tier.rank < Tier.operand.rank := Nat.lt_succ_of_le formed.tier_le
    refine operand_of_suffixed complete ⟨formed, fill_pad nodeFilled ?_⟩ ?_
    · exact avoids_takes_lower (by decide) avoids
    apply Gives.accept_missed fun lexeme => (lexeme.binaryOp? BinaryOp.isArithmetic).isSome
    · intro token
      rw [token.binaryOp?_eq]
    · rfl
    · exact avoids_binaryOp? (avoids.joins?_ne tight (Nat.le_refl _)) fun op =>
        BinaryOp.tier_of_isArithmetic
    · exact Gives.pure
  | @unary op operand under =>
    rw [Node.spelling, fill_token_eq_some] at nodeFilled
    obtain ⟨inside, shape, operandFilled⟩ := nodeFilled
    -- After a prefix comes an operand again, for which the rules are asked one bound lower.
    have operandFilled : fill (operand.padded .operand) inside = some after := operandFilled
    apply Gives.skipSpace_bind
    rw [shape]
    apply Gives.accept_met
    intro token shown
    refine ⟨op, ?_, ?_⟩
    · rw [token.unaryOp?_eq, shown]
      exact Lexeme.unaryOp?_eq_some.2 rfl
    · rw [flush_of_pad operandFilled]
      exact (complete.operand ⟨under, operandFilled⟩).reshape rfl
  | @arithmetic left right op sign formed rightFormed =>
    rw [Node.spelling, BinaryOp.slots_operand (Or.inl sign),
      BinaryOp.rightSlots_operand (Or.inl sign)] at nodeFilled
    simp only [Bool.false_eq_true, if_false, List.append_assoc, List.cons_append,
      List.nil_append] at nodeFilled
    rw [fill_append_eq_some] at nodeFilled
    obtain ⟨stop, leftFilled, following⟩ := nodeFilled
    rw [fill_gap, fill_token_eq_some] at following
    obtain ⟨inside, shape, rightFilled⟩ := following
    -- The right side of arithmetic is an operand, so the chain groups to the right.
    have rightFilled : fill (right.padded .operand) inside = some after := rightFilled
    have joins : op.sign.joins? = some .operand := by
      rw [op.joins?_sign, BinaryOp.tier_of_isArithmetic sign]
    refine operand_of_suffixed complete ⟨formed, fill_pad leftFilled ?_⟩ ?_
    · -- Arithmetic is out of reach for a suffixed value.
      rw [shape]
      exact avoids_takes_beyond joins (by decide)
    · rw [shape]
      apply Gives.accept_met
      intro token shown
      refine ⟨op, ?_, ?_⟩
      · rw [token.binaryOp?_eq, shown]
        refine Lexeme.binaryOp?_eq_some.2 ⟨rfl, ?_, sign⟩
        rintro rfl
        cases sign
      · rw [flush_of_pad rightFilled]
        exact (complete.operand ⟨rightFormed, rightFilled⟩).reshape rfl

/-- A predicate is given after its operand if its word or sign, perhaps after a `NOT`, gives it. -/
theorem predicate_of_operand (complete : inner.Complete) {negated : Bool} {slots : List Slot}
    {announcing : Lexeme} (formed : Formed .operand left)
    (filled : fill (left.spelling ++ .gap :: ((if negated then [.keyword .not, .gap] else []) ++
      .token announcing :: slots)) (skip before) = some after)
    (joins : announcing.joins? = some .predicate) (other : announcing ≠ .keyword .not)
    (gives : ∀ (negation : Option Token) (inside entry : List Lexeme), negation.isSome = negated →
      skip entry = announcing :: inside → fill slots inside = some after →
      Gives (predicateOf inner left negation) entry node rest) :
    Gives (predicate inner) before node rest := by
  rw [fill_append_eq_some] at filled
  obtain ⟨stop, leftFilled, following⟩ := filled
  rw [fill_gap] at following
  -- Neither a `NOT` nor what announces a predicate can be taken by the operand.
  have apart : ∀ {lexeme : Lexeme} {inside : List Lexeme}, lexeme.joins? = some .predicate →
      skip stop = lexeme :: inside → Gives (operand inner) before left (skip stop) := by
    intro lexeme inside joins shape
    refine operand_gives complete ⟨formed, fill_pad leftFilled ?_⟩
    rw [shape]
    exact avoids_takes_beyond joins (by decide)
  -- The `NOT` is taken if it is there, and what announces the predicate is left for the next rule.
  cases negated with
  | true =>
    rw [if_pos rfl, List.cons_append, fill_token_eq_some] at following
    obtain ⟨entry, shape, following⟩ := following
    rw [List.cons_append, List.nil_append, fill_gap, fill_token_eq_some] at following
    obtain ⟨inside, entryShape, slotsFilled⟩ := following
    refine (apart rfl shape).bind ?_
    rw [shape]
    apply Gives.accept_met
    intro token shown
    refine ⟨token, ?_, gives (some token) inside entry rfl entryShape slotsFilled⟩
    rw [token.isKeyword_eq, shown, beq_self_eq_true, if_pos rfl]
  | false =>
    rw [if_neg (by decide), List.nil_append, fill_token_eq_some] at following
    obtain ⟨inside, shape, slotsFilled⟩ := following
    refine (apart joins shape).bind ?_
    apply Gives.accept_missed (· == .keyword .not)
    · intro token
      rw [token.isKeyword_eq]
      cases token.lexeme == .keyword .not <;> rfl
    · rfl
    · -- What announces the predicate is not itself a `NOT`.
      rw [shape]
      simpa using other
    · exact gives none inside (skip stop) rfl (by rw [skip_skip, shape]) slotsFilled

/-- A predicate is given where its spelling is filled. -/
theorem predicate_gives (complete : inner.Complete) (spells : Spells .predicate lexemes node rest) :
    Gives (predicate inner) lexemes node rest := by
  obtain ⟨formed, filled⟩ := spells
  obtain ⟨after, nodeFilled, rfl, avoids⟩ := fill_pad_eq_some.1 filled
  cases formed with
  | ofOperand formed =>
    have tight : node.tier.rank < Tier.predicate.rank := Nat.lt_succ_of_le formed.tier_le
    have apart := avoids.joins?_ne tight (Nat.le_refl _)
    have lower := avoids_takes_lower (show Tier.operand.rank ≤ Tier.predicate.rank by decide) avoids
    -- None of the words and signs of a predicate is next, so every look misses.
    refine (operand_gives complete ⟨formed, fill_pad nodeFilled lower⟩).bind ?_
    apply Gives.accept_missed (· == .keyword .not)
    · intro token
      rw [token.isKeyword_eq]
      cases token.lexeme == .keyword .not <;> rfl
    · rfl
    · exact avoids_joining apart rfl
    apply Gives.skipSpace_bind
    rw [skip_skip]
    apply Gives.eatKeyword_missed (avoids_joining apart rfl)
    apply Gives.eatKeyword_missed (avoids_joining apart rfl)
    apply Gives.accept_missed fun lexeme => (lexeme.binaryOp? BinaryOp.isMatch).isSome
    · intro token
      rw [token.binaryOp?_eq]
    · rfl
    · exact avoids_binaryOp? apart fun op => BinaryOp.tier_of_isMatch
    · exact Gives.pure
  | @between left low high negated formed lower upper =>
    rw [Node.spelling] at nodeFilled
    simp only [List.append_assoc, List.cons_append] at nodeFilled
    refine predicate_of_operand complete formed nodeFilled rfl (by decide) ?_
    rintro negation inside entry rfl shape slotsFilled
    -- Both ends of a range are operands, so its `AND` is not taken for a link.
    have slotsFilled : fill (low.padded .operand ++ .keyword .and :: high.padded .operand) inside =
        some after := slotsFilled
    rw [fill_append_eq_some] at slotsFilled
    obtain ⟨middle, lowFilled, following⟩ := slotsFilled
    rw [fill_token_eq_some] at following
    obtain ⟨others, rfl, highFilled⟩ := following
    apply Gives.skipSpace_bind
    rw [shape]
    apply Gives.eatKeyword_met
    refine (complete.operand ⟨lower, lowFilled⟩).bind ?_
    apply Gives.requireKeyword_bind
    rw [flush_of_pad highFilled]
    exact (complete.operand ⟨upper, highFilled⟩).reshape rfl
  | @in_ left items negated formed nonempty each =>
    rw [Node.spelling] at nodeFilled
    simp only [List.append_assoc, List.cons_append] at nodeFilled
    refine predicate_of_operand complete formed nodeFilled rfl (by decide) ?_
    rintro negation inside entry rfl shape slotsFilled
    -- A list stands between parentheses, behind which white space is skipped once more.
    have slotsFilled : fill (.gap :: .mark .openParen ::
        (commaSlots noComma (paddedAll items) ++ [.mark .closeParen]) ++ [.gap]) inside =
        some after := slotsFilled
    rw [paddedAll_eq, List.cons_append, List.cons_append, List.append_assoc, fill_gap,
      fill_token_eq_some] at slotsFilled
    obtain ⟨held, opened, following⟩ := slotsFilled
    rw [← List.append_assoc, fill_append_eq_some] at following
    obtain ⟨others, itemsFilled, last⟩ := following
    rw [fill_concat_token] at itemsFilled
    obtain rfl := Option.some.inj last
    apply Gives.skipSpace_bind
    rw [shape]
    apply Gives.eatKeyword_missed (avoids_cons.2 (by decide))
    apply Gives.eatKeyword_met
    apply Gives.skipSpace_bind
    rw [opened]
    apply Gives.requireMark_bind
    refine (separated_gives complete nonempty each itemsFilled).closedBy.bind ?_
    apply Gives.skipSpace_bind
    rw [skip_skip]
    exact Gives.pure
  | @match_ left right op negated sign formed rightFormed =>
    rw [Node.spelling, BinaryOp.slots_operand (Or.inr sign),
      BinaryOp.rightSlots_operand (Or.inr sign)] at nodeFilled
    simp only [List.append_assoc, List.cons_append] at nodeFilled
    have joins : op.sign.joins? = some .predicate := by
      rw [op.joins?_sign, BinaryOp.tier_of_isMatch sign]
    -- The sign of a comparison is none of the words that are looked for before it.
    have other : ∀ word : Keyword, word = .not ∨ word = .between ∨ word = .in_ →
        op.sign ≠ .keyword word := by
      intro word listed
      rcases listed with rfl | rfl | rfl <;> cases op <;> first | decide | cases sign
    refine predicate_of_operand complete formed nodeFilled joins (other _ (Or.inl rfl)) ?_
    rintro negation inside entry rfl shape slotsFilled
    have slotsFilled : fill (right.padded .operand) inside = some after := slotsFilled
    apply Gives.skipSpace_bind
    rw [shape]
    apply Gives.eatKeyword_missed
    · simpa using other _ (Or.inr (Or.inl rfl))
    apply Gives.eatKeyword_missed
    · simpa using other _ (Or.inr (Or.inr rfl))
    -- The sign tells the operator.
    apply Gives.accept_met
    intro token shown
    refine ⟨op, ?_, ?_⟩
    · rw [token.binaryOp?_eq, shown]
      refine Lexeme.binaryOp?_eq_some.2 ⟨rfl, ?_, sign⟩
      rintro rfl
      cases sign
    · rw [flush_of_pad slotsFilled]
      exact (complete.operand ⟨rightFormed, slotsFilled⟩).reshape rfl

/-- A linking operator is given where its spelling is filled, of which the first word is taken. -/
theorem withNot_gives {op : BinaryOp} (word : op.tier = .expression)
    (filled : fill op.slots lexemes = some rest) :
    ∃ (first : BinaryOp) (inside : List Lexeme), lexemes = first.sign :: inside ∧
      first.isLink = true ∧ first ≠ .isNot ∧ Gives (withNot first) inside op rest := by
  -- A link of one word is read at once; only after an `IS` a `NOT` is looked for.
  have alone : ∀ op : BinaryOp, op ≠ .is → op.isLink = true → op ≠ .isNot →
      fill [.token op.sign] lexemes = some rest →
      ∃ (first : BinaryOp) (inside : List Lexeme), lexemes = first.sign :: inside ∧
        first.isLink = true ∧ first ≠ .isNot ∧ Gives (withNot first) inside op rest := by
    intro op affirmed link single filled
    rw [fill_token_eq_some] at filled
    obtain ⟨inside, rfl, same⟩ := filled
    obtain rfl := Option.some.inj same
    refine ⟨op, inside, rfl, link, single, ?_⟩
    rw [withNot, if_neg (by simpa using affirmed)]
    exact Gives.pure
  cases op with
  | is =>
    rw [BinaryOp.slots, fill_token_eq_some] at filled
    obtain ⟨inside, rfl, filled⟩ := filled
    -- That no `NOT` follows is part of the slots of `IS`.
    rw [fill_gap, fill_notBefore_eq_some, skip_skip] at filled
    obtain ⟨avoids, same⟩ := filled
    obtain rfl := Option.some.inj same
    refine ⟨.is, inside, rfl, rfl, by decide, ?_⟩
    apply Gives.skipSpace_bind
    exact Gives.eatKeyword_missed avoids Gives.pure
  | isNot =>
    rw [BinaryOp.slots, fill_token_eq_some] at filled
    obtain ⟨inside, rfl, filled⟩ := filled
    rw [fill_gap, fill_token_eq_some] at filled
    obtain ⟨others, shape, same⟩ := filled
    obtain rfl := Option.some.inj same
    refine ⟨.is, inside, rfl, rfl, by decide, ?_⟩
    apply Gives.skipSpace_bind
    rw [shape]
    exact Gives.eatKeyword_met Gives.pure
  | and => exact alone .and (by decide) rfl (by decide) filled
  | or => exact alone .or (by decide) rfl (by decide) filled
  | _ => cases word

/-- An expression is given where its spelling is filled. -/
theorem expression_gives (complete : inner.Complete)
    (spells : Spells .expression lexemes node rest) :
    Gives (expression inner) lexemes node rest := by
  obtain ⟨formed, filled⟩ := spells
  obtain ⟨after, nodeFilled, rfl, avoids⟩ := fill_pad_eq_some.1 filled
  cases formed with
  | ofPredicate formed =>
    -- A predicate stands alone, since no link follows it.
    have tight : node.tier.rank < Tier.expression.rank := Nat.lt_succ_of_le formed.tier_le
    have lower :=
      avoids_takes_lower (show Tier.predicate.rank ≤ Tier.expression.rank by decide) avoids
    refine (predicate_gives complete ⟨formed, fill_pad nodeFilled lower⟩).bind ?_
    apply Gives.accept_missed fun lexeme => (lexeme.binaryOp? BinaryOp.isLink).isSome
    · intro token
      rw [token.binaryOp?_eq]
    · rfl
    · exact avoids_binaryOp? (avoids.joins?_ne tight (Nat.le_refl _)) fun op =>
        BinaryOp.tier_of_isLink
    · exact Gives.pure
  | @link left right op word formed rightFormed told =>
    rw [Node.spelling, BinaryOp.rightSlots_expression word] at nodeFilled
    simp only [Bool.false_eq_true, if_false, List.append_assoc, List.cons_append,
      List.nil_append] at nodeFilled
    rw [fill_append_eq_some] at nodeFilled
    obtain ⟨stop, leftFilled, following⟩ := nodeFilled
    rw [fill_gap, fill_append_eq_some] at following
    obtain ⟨middle, opFilled, rightFilled⟩ := following
    have rightFilled : fill (right.padded .expression) middle = some after := rightFilled
    obtain ⟨first, inside, shape, link, single, opGives⟩ := withNot_gives word opFilled
    have joins : first.sign.joins? = some .expression := by
      rw [first.joins?_sign, BinaryOp.tier_of_isLink link]
    -- The left side is a predicate, for which the link is out of reach.
    have leftSpells : Spells .predicate lexemes left (skip stop) := by
      refine ⟨formed, fill_pad leftFilled ?_⟩
      rw [shape]
      exact avoids_takes_beyond joins (by decide)
    refine (predicate_gives complete leftSpells).bind ?_
    rw [shape]
    apply Gives.accept_met
    intro token shown
    refine ⟨first, ?_, ?_⟩
    · rw [token.binaryOp?_eq, shown]
      exact Lexeme.binaryOp?_eq_some.2 ⟨rfl, single, link⟩
    · -- The right side is a whole expression, so the chain groups to the right.
      refine opGives.bind ?_
      rw [flush_of_pad rightFilled]
      exact (complete.expression ⟨rightFormed, rightFilled⟩).reshape rfl

end Tiers

end Grammar

end SelectSql
