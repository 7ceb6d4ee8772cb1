import SelectSql.Grammar.Expression
import SelectSql.Proofs.Reading.Reads
import SelectSql.Proofs.Spelling.Statement

/-!
What is read as an expression is one. Each rule of the grammar gives a tree of its tier, and the
lexemes that it took fill the spelling of that tree.
-/

namespace SelectSql

variable {lexemes rest : List Lexeme} {tier limit : Tier} {node : Node}

/-- Lexemes that begin with an expression of a tier, and what is left after it. -/
def Spells (tier : Tier) (lexemes : List Lexeme) (node : Node) (rest : List Lexeme) : Prop :=
  Formed tier node ∧ fill (node.padded tier) lexemes = some rest

/-- Lexemes that begin with an atom, and what is left after it. -/
def SpellsAtom (lexemes : List Lexeme) (node : Node) (rest : List Lexeme) : Prop :=
  Formed .atom node ∧ fill node.spelling lexemes = some rest

/-- Lexemes that begin with a source of rows, and what is left after it. -/
def SpellsSource (lexemes : List Lexeme) (node : Node) (rest : List Lexeme) : Prop :=
  SourceFormed .source node ∧ fill node.paddedSource lexemes = some rest

/-- Nested rules that give what they have read. -/
structure Grammar.Rules.Sound (inner : Grammar.Rules Lexer) : Prop where
  /-- Expressions are expressions. -/
  expression : ∀ lexemes, Reads inner.expression lexemes (Spells .expression lexemes)
  /-- Operands are operands. -/
  operand : ∀ lexemes, Reads inner.operand lexemes (Spells .operand lexemes)
  /-- Sources are sources. -/
  source : ∀ lexemes, Reads inner.source lexemes (SpellsSource lexemes)

namespace Grammar

open Parsing

variable {inner : Rules Lexer}

/-- An expression leaves no white space behind. -/
theorem Rules.Sound.flush (sound : inner.Sound) (lexemes : List Lexeme) :
    Reads inner.expression lexemes fun node rest => Formed .expression node ∧
      fill (node.padded .expression) lexemes = some rest ∧ skip rest = rest := by
  refine (sound.expression lexemes).mono ?_
  rintro node rest ⟨formed, filled⟩
  exact ⟨formed, filled, flush_of_pad filled⟩

/-- A list of expressions fills its spelling. -/
theorem separated_reads (sound : inner.Sound) (bound : Nat) (lexemes : List Lexeme) :
    Reads (separated inner.expression bound) lexemes fun nodes rest =>
      (nodes ≠ [] ∧ ∀ node ∈ nodes, Formed .expression node) ∧
        fill (commaSlots noComma (nodes.map (Node.padded .expression))) lexemes = some rest ∧
        skip rest = rest :=
  Reads.commaList sound.flush bound lexemes

/-- Arguments fill their spelling, and are followed by white space at most. -/
theorem arguments_reads (sound : inner.Sound) (lexemes : List Lexeme) :
    Reads (arguments inner) lexemes fun nodes rest =>
      (∀ node ∈ nodes, Formed .expression node) ∧
        fill (.gap :: commaSlots noComma (paddedAll nodes)) lexemes = some rest := by
  apply Reads.skipSpace_bind
  apply Reads.peek_bind
  intro token _
  -- A closing parenthesis comes first where there are no arguments.
  split
  · exact Reads.pure ⟨by simp, rfl⟩
  · refine (separated_reads sound _ _).mono ?_
    rintro nodes rest ⟨⟨_, formed⟩, filled, _⟩
    rw [paddedAll_eq, fill_gap]
    exact ⟨formed, filled⟩

/-- What follows a name makes it a call, a qualified reference or a bare one. -/
theorem named_reads (sound : inner.Sound) {name : String} (isName : IsName name)
    (lexemes : List Lexeme) :
    Reads (named inner name) lexemes fun node rest =>
      SpellsAtom (.name name :: lexemes) node rest := by
  have text := isName.ofText_eq
  apply Reads.eatMark_bind
  · -- An opening parenthesis right after the name makes it a call.
    rintro inside rfl
    apply Reads.reshape
    refine (arguments_reads sound inside).closedBy.mono ?_
    rintro nodes rest ⟨formed, filled⟩
    refine ⟨.call isName formed, ?_⟩
    rw [Node.spelling, text, List.cons_append, fill_token, List.cons_append, fill_token,
      fill_append_of filled, fill_token, fill_nil]
  · intro noCall
    apply Reads.eatMark_bind
    · -- A dot makes it a member, which is a name or a star; the star is no name to the lexer.
      rintro inside rfl
      apply Reads.of_proper
      intro proper
      apply Reads.require_bind Lexeme.member? Token.member?_eq rfl
      intro lexeme member rest shape meant
      subst shape
      have held : lexeme = .ofText member ∧ (IsName member ∨ member = "*") := by
        cases lexeme with
        | name other =>
          obtain rfl := Option.some.inj meant
          have isMember : IsName other := proper.1
          exact ⟨isMember.ofText_eq.symm, Or.inl isMember⟩
        | symbol terminal =>
          rcases terminal with word | sign
          · cases meant
          · cases sign <;> cases meant
            exact ⟨by decide, Or.inr rfl⟩
        | _ => cases meant
      obtain ⟨rfl, admitted⟩ := held
      refine Reads.pure ⟨.member isName admitted, ?_⟩
      rw [Node.spelling, text, fill_token, fill_token, fill_token, fill_nil]
    · -- A bare name is spelled with neither of the two right behind it, and neither was found.
      intro noMember
      apply Reads.pure
      refine ⟨.reference isName, ?_⟩
      rw [Node.spelling, text, fill_token, fill_notTouching, fill_nil]
      exact noCall.or noMember

/-- Branches fill their spelling, of which the first `WHEN` has been taken. -/
theorem branches_reads (sound : inner.Sound) (bound : Nat) (lexemes : List Lexeme) :
    Reads (branches inner bound) lexemes fun branches rest =>
      branches ≠ [] ∧ (∀ branch ∈ branches, Formed .expression branch.condition) ∧
        (∀ branch ∈ branches, Formed .expression branch.result) ∧
        fill (branchSlots branches) (.keyword .when :: lexemes) = some rest := by
  -- The induction is on the bound. The `WHEN` of each further branch is taken with the branch
  -- before it, so it stands in front of the lexemes of the goal.
  induction bound generalizing lexemes with
  | zero => exact Reads.exhausted
  | succ bound ih =>
    refine (sound.expression lexemes).bind ?_
    rintro condition rest ⟨conditionFormed, conditionFilled⟩
    apply Reads.requireKeyword_bind
    rintro rest rfl
    refine (sound.expression rest).bind ?_
    rintro result rest ⟨resultFormed, resultFilled⟩
    -- One branch fills its slots whether or not there is another.
    have first : fill (Branch.slots ⟨condition, result⟩) (.keyword .when :: lexemes) =
        some rest := by
      rw [Branch.slots_eq, List.cons_append, fill_token, fill_append_of conditionFilled, fill_token]
      exact resultFilled
    apply Reads.eatKeyword_bind
    · rintro after rfl
      refine (ih after).bind ?_
      rintro others rest ⟨_, conditions, results, filled⟩
      refine Reads.pure ⟨by simp, List.forall_mem_cons.2 ⟨conditionFormed, conditions⟩,
        List.forall_mem_cons.2 ⟨resultFormed, results⟩, ?_⟩
      rw [branchSlots, fill_append_of first]
      exact filled
    · -- Whatever follows the last branch, the list of slots ends with it.
      intro _
      refine Reads.pure ⟨by simp, by simpa using conditionFormed, by simpa using resultFormed, ?_⟩
      rw [branchSlots, fill_append_of first]
      rfl

/-- A subject fills its spelling, and without one nothing is taken. -/
theorem subject?_reads (sound : inner.Sound) (lexemes : List Lexeme) :
    Reads (subject? inner) lexemes fun subject rest =>
      (∀ node ∈ subject, Formed .expression node) ∧
        fill (paddedOption [] subject) lexemes = some rest := by
  apply Reads.peek_bind
  intro token _
  -- A `WHEN` leaves the lexemes to the first branch.
  split
  · exact Reads.pure ⟨by simp, rfl⟩
  · apply Reads.reshape
    refine (sound.expression lexemes).mono ?_
    rintro node rest ⟨formed, filled⟩
    exact ⟨by simpa using formed, filled⟩

/-- A choice fills its spelling, of which the `CASE` has been taken. -/
theorem choice_reads (sound : inner.Sound) (lexemes : List Lexeme) :
    Reads (choice inner) lexemes fun node rest =>
      SpellsAtom (.keyword .case :: lexemes) node rest := by
  apply Reads.of_proper
  intro proper
  apply Reads.require_bind (fun lexeme => if lexeme = .space then some () else none) ?_ rfl
  · intro lexeme _ after shape meant
    obtain rfl : lexeme = .space := by
      split at meant
      · assumption
      · cases meant
    subst shape
    -- The space after `CASE` was one token, so no other follows it.
    have flush := skip_eq_self (proper.2.1 rfl)
    refine (subject?_reads sound after).bind ?_
    rintro subject rest ⟨subjectFormed, subjectFilled⟩
    apply Reads.requireKeyword_bind
    rintro rest rfl
    refine (branches_reads sound _ rest).bind ?_
    rintro branches between ⟨nonempty, conditions, results, branchesFilled⟩
    refine (Reads.after? fun inside _ => sound.expression inside).bind ?_
    intro otherwise rest found
    -- Without an `ELSE` nothing is taken between the branches and the `END`.
    have last : (∀ node ∈ otherwise, Formed .expression node) ∧
        fill (paddedOption [.keyword .else_] otherwise) between = some rest := by
      cases otherwise with
      | none => exact ⟨by simp, by rw [found.1]; rfl⟩
      | some node =>
        obtain ⟨inside, rfl, formed, filled⟩ := found
        refine ⟨by simpa using formed, ?_⟩
        rw [paddedOption, List.singleton_append, fill_token]
        exact filled
    apply Reads.requireKeyword_bind
    rintro rest rfl
    refine Reads.pure ⟨.case subjectFormed nonempty conditions results last.1, ?_⟩
    -- The slots are filled part by part, in the order in which the parts were read.
    rw [Node.spelling]
    simp only [List.cons_append, List.append_assoc, fill_token, fill_blank, flush]
    rw [fill_append_of subjectFilled, fill_append_of branchesFilled, fill_append_of last.2,
      fill_token, fill_nil]
  · -- The category of the token is what tells a space.
    intro token
    simp [token.isSpace_eq]

/-- An atom fills its spelling. -/
theorem atom_reads (sound : inner.Sound) (lexemes : List Lexeme) :
    Reads (atom inner) lexemes (SpellsAtom lexemes) := by
  apply Reads.of_proper
  intro proper
  apply Reads.next_bind
  · intro token rest shape
    subst shape
    have genuine : token.lexeme.Genuine := proper.1
    -- The category settles the rule, and in proper lexemes the text suits the category.
    cases kind : token.kind with
    | literal =>
      have lexeme : token.lexeme = .literal token.text := by rw [Token.lexeme, kind]
      rw [lexeme] at genuine ⊢
      refine Reads.pure ⟨.literal (Or.inl genuine), ?_⟩
      rw [Node.spelling, IsLiteral.ofText_eq genuine, fill_token, fill_nil]
    | identifier =>
      have lexeme : token.lexeme = .name token.text := by rw [Token.lexeme, kind]
      rw [lexeme] at genuine ⊢
      exact named_reads sound genuine rest
    | keyword word =>
      have lexeme : token.lexeme = .keyword word := by rw [Token.lexeme, kind]
      rw [lexeme]
      cases word with
      | null => exact Reads.pure ⟨.literal (Or.inr (Or.inl rfl)), rfl⟩
      | case => exact choice_reads sound rest
      | _ => exact Reads.unexpected
    | mark =>
      simp only [token.isMark_eq]
      -- Of the marks only a star and an opening parenthesis begin an atom.
      by_cases star : token.lexeme = .mark .star
      · simp only [star, beq_self_eq_true, if_true]
        exact Reads.pure ⟨.literal (Or.inr (Or.inr rfl)), rfl⟩
      by_cases paren : token.lexeme = .mark .openParen
      · simp only [paren]
        apply Reads.reshape
        refine (sound.expression rest).closedBy.mono ?_
        rintro node after ⟨formed, filled⟩
        refine ⟨.parens formed, ?_⟩
        rw [Node.spelling, List.cons_append, fill_token]
        exact (fill_append_of filled).trans (by rw [fill_token, fill_nil])
      · simp only [beq_eq_false_iff_ne.2 star, beq_eq_false_iff_ne.2 paren, Bool.false_eq_true,
          if_false]
        exact Reads.unexpected
    | space => exact Reads.unexpected
    | eof => exact Reads.unexpected
  · -- The end of input begins no atom.
    intro token ending lexer value after run
    have kind : token.kind = .eof := beq_iff_eq.1 ending
    rw [kind] at run
    cases run

section Tiers

variable {before after : List Lexeme} {value left : Node}

/-- An atom and the index after it fill the spelling of what they make. -/
theorem subscripted_reads (sound : inner.Sound) (formed : Formed .atom value)
    (filled : fill value.spelling (skip before) = some after) :
    Reads (subscripted inner value) (skip after) (Spells .indexed before) := by
  apply Reads.eatMark_bind
  · intro inside shape
    refine (sound.expression inside).closedBy.bind ?_
    rintro index closed ⟨indexFormed, indexFilled⟩
    apply Reads.skipSpace_bind
    refine Reads.pure ⟨.subscript formed indexFormed, ?_⟩
    -- An indexed value takes no further index, so nothing is asked of what follows.
    refine fill_pad ?_ (avoids_takes_complete (Nat.le_refl _))
    rw [Node.spelling]
    simp only [List.append_assoc, List.cons_append]
    rw [fill_append_of filled, fill_gap, shape, fill_token]
    exact (fill_append_of indexFilled).trans (by rw [fill_token, fill_nil])
  · intro noBracket
    refine Reads.pure ⟨.ofAtom formed, fill_pad filled ?_⟩
    -- What could join an atom on this tier is a bracket, and none was found.
    apply avoids_takes_succ .atom rfl (avoids_takes_complete (Nat.zero_le _))
    intro lexeme first joins
    have fails := noBracket lexeme first
    rw [Lexeme.joins?_indexed joins] at fails
    cases fails

/-- An indexed value and the conversion after it fill the spelling of what they make. -/
theorem converted_reads (sound : inner.Sound) (spells : Spells .indexed before value after) :
    Reads (converted inner value) after (Spells .suffixed before) := by
  obtain ⟨formed, filled⟩ := spells
  -- The space after the value belongs to its padding, so the value itself ends before it.
  obtain ⟨stop, valueFilled, rfl, avoids⟩ := fill_pad_eq_some.1 filled
  apply Reads.eatMark_bind
  · intro inside shape
    apply Reads.skipSpace_bind
    refine (atom_reads sound (skip inside)).bind ?_
    rintro target rest ⟨targetFormed, targetFilled⟩
    apply Reads.skipSpace_bind
    refine Reads.pure ⟨.cast formed targetFormed, ?_⟩
    -- After a conversion nothing more is taken on this tier.
    refine fill_pad ?_ (avoids_takes_complete (Nat.le_refl _))
    rw [Node.spelling, fill_append_of valueFilled, fill_gap, shape, fill_token, fill_gap]
    exact targetFilled
  · intro noColon
    refine Reads.pure ⟨.ofIndexed formed, fill_pad valueFilled ?_⟩
    -- What could join the value on this tier is a double colon, and none was found.
    apply avoids_takes_succ _ rfl avoids
    intro lexeme first joins
    have fails := noColon lexeme first
    rw [Lexeme.joins?_suffixed joins] at fails
    cases fails

/-- An operand fills its spelling. -/
theorem operand_reads (sound : inner.Sound) (lexemes : List Lexeme) :
    Reads (operand inner) lexemes (Spells .operand lexemes) := by
  apply Reads.skipSpace_bind
  apply Reads.accept_bind Lexeme.unaryOp? Token.unaryOp?_eq rfl
  · -- A prefix takes the whole operand after it.
    intro lexeme op inside shape meant
    obtain rfl := Lexeme.unaryOp?_eq_some.1 meant
    apply Reads.reshape
    refine (sound.operand inside).mono ?_
    rintro node rest ⟨formed, filled⟩
    refine ⟨.unary formed, ?_⟩
    refine fill_pad_of_flush ?_ (flush_of_pad filled) (avoids_takes_complete (Nat.le_refl _))
    rw [shape, Node.spelling, fill_token]
    exact filled
  · -- Otherwise an atom comes first, then its suffixes, then perhaps arithmetic.
    intro _
    refine (atom_reads sound (skip lexemes)).bind ?_
    rintro atom after ⟨atomFormed, atomFilled⟩
    apply Reads.skipSpace_bind
    refine (subscripted_reads sound atomFormed atomFilled).bind ?_
    intro indexed rest indexedSpells
    refine (converted_reads sound indexedSpells).bind ?_
    rintro value rest ⟨formed, filled⟩
    obtain ⟨stop, valueFilled, rfl, avoids⟩ := fill_pad_eq_some.1 filled
    apply Reads.accept_bind (Lexeme.binaryOp? BinaryOp.isArithmetic)
      (fun token => token.binaryOp?_eq _) rfl
    · intro lexeme op inside shape meant
      obtain ⟨rfl, _, sign⟩ := Lexeme.binaryOp?_eq_some.1 meant
      apply Reads.reshape
      refine (sound.operand inside).mono ?_
      rintro right rest ⟨rightFormed, rightFilled⟩
      -- The right side is an operand again, so it ends as the whole does.
      have whole := Formed.arithmetic sign formed rightFormed
      refine ⟨whole, fill_pad_of_flush ?_ (flush_of_pad rightFilled) ?_⟩
      · rw [Node.spelling, BinaryOp.slots_operand (Or.inl sign),
          BinaryOp.rightSlots_operand (Or.inl sign)]
        simp only [Bool.false_eq_true, if_false, List.append_assoc, List.cons_append,
          List.nil_append]
        rw [fill_append_of valueFilled, fill_gap, shape, fill_token]
        exact rightFilled
      · have same : (Node.binary value op right false).tier = .operand :=
          BinaryOp.tier_of_isArithmetic sign
        exact avoids_takes_complete (Nat.le_of_eq (congrArg Tier.rank same.symm))
    · intro noSign
      refine Reads.pure ⟨.ofSuffixed formed, fill_pad valueFilled ?_⟩
      -- What could join the value on this tier is a sign of arithmetic, and none was found.
      apply avoids_takes_succ _ rfl avoids
      intro lexeme first joins
      obtain ⟨op, found⟩ := Lexeme.joins?_operand joins
      rw [noSign lexeme first] at found
      cases found

/-- The slots of the `NOT` that may announce a predicate. -/
private abbrev notSlots (negated : Bool) : List Slot :=
  if negated then [.keyword .not, .gap] else []

/-- An operand and the predicate after it fill the spelling of what they make. -/
theorem predicateOf_reads (sound : inner.Sound) {negation : Option Token}
    (formed : Formed .operand left) (filled : fill left.spelling (skip before) = some after)
    (announced : fill (notSlots negation.isSome) (skip after) = some (skip lexemes))
    (avoids : negation = none → Avoids (left.takes .operand) (skip lexemes) ∧
      Avoids (· == .keyword .not) (skip lexemes) ∧ skip after = skip lexemes) :
    Reads (predicateOf inner left negation) lexemes (Spells .predicate before) := by
  -- All three forms begin with the operand and the `NOT`, if there is one.
  have reached : fill (left.spelling ++ .gap :: notSlots negation.isSome) (skip before) =
      some (skip lexemes) := by
    rw [fill_append_of filled, fill_gap, announced]
  -- The rules try `BETWEEN`, `IN` and the signs in turn, and what each has not found is kept.
  apply Reads.skipSpace_bind
  apply Reads.eatKeyword_bind
  · intro inside shape
    refine (sound.operand inside).bind ?_
    rintro low rest ⟨lowFormed, lowFilled⟩
    apply Reads.requireKeyword_bind
    rintro rest rfl
    refine (sound.operand rest).bind ?_
    rintro high rest ⟨highFormed, highFilled⟩
    refine Reads.pure ⟨.between formed lowFormed highFormed, ?_⟩
    refine fill_pad_of_flush ?_ (flush_of_pad highFilled) (avoids_takes_complete (Nat.le_refl _))
    rw [Node.spelling, List.append_assoc, fill_append_of reached, shape]
    simp only [BinaryOp.slots, BinaryOp.rightSlots, Node.spelling, List.singleton_append]
    rw [BinaryOp.sign]
    simp only [BinaryOp.terminals, fill_token]
    exact (fill_append_of lowFilled).trans (by rw [fill_token]; exact highFilled)
  intro noBetween
  apply Reads.eatKeyword_bind
  · intro inside shape
    apply Reads.skipSpace_bind
    apply Reads.requireMark_bind
    intro held inShape
    refine (separated_reads sound _ held).closedBy.bind ?_
    rintro items rest ⟨⟨nonempty, itemsFormed⟩, itemsFilled, _⟩
    apply Reads.skipSpace_bind
    refine Reads.pure ⟨.in_ formed nonempty itemsFormed, ?_⟩
    refine fill_pad_of_flush ?_ skip_skip (avoids_takes_complete (Nat.le_refl _))
    rw [Node.spelling, List.append_assoc, fill_append_of reached, shape]
    simp only [BinaryOp.slots, BinaryOp.rightSlots, Node.spelling, List.singleton_append,
      paddedAll_eq]
    rw [BinaryOp.sign]
    simp only [BinaryOp.terminals, fill_token, fill_gap, List.cons_append, List.append_assoc,
      inShape]
    rw [fill_append_of itemsFilled]
    simp
  intro noIn
  apply Reads.accept_bind (Lexeme.binaryOp? BinaryOp.isMatch)
    (fun token => token.binaryOp?_eq _) rfl
  · intro lexeme op inside shape meant
    obtain ⟨rfl, _, sign⟩ := Lexeme.binaryOp?_eq_some.1 meant
    apply Reads.reshape
    refine (sound.operand inside).mono ?_
    rintro right rest ⟨rightFormed, rightFilled⟩
    refine ⟨.match_ sign formed rightFormed, fill_pad_of_flush ?_ (flush_of_pad rightFilled) ?_⟩
    · rw [Node.spelling, List.append_assoc, fill_append_of reached, shape,
        BinaryOp.slots_operand (Or.inr sign), BinaryOp.rightSlots_operand (Or.inr sign),
        List.singleton_append, fill_token]
      exact rightFilled
    · apply avoids_takes_complete
      cases op <;> first | exact Nat.le_refl _ | cases sign
  · intro noMatch
    -- With a `NOT` the text is refused here; without one the operand stands alone.
    cases negation with
    | some token => exact Reads.unexpected
    | none =>
      obtain ⟨tight, noNot, same⟩ := avoids rfl
      refine Reads.pure ⟨.ofOperand formed, ?_⟩
      rw [← same] at tight noNot noBetween noIn noMatch ⊢
      refine fill_pad filled ?_
      apply avoids_takes_succ _ rfl tight
      intro lexeme first joins
      -- What could join an operand on this tier has been looked for, the `NOT` included.
      rcases Lexeme.joins?_predicate joins with rfl | rfl | rfl | ⟨op, found⟩
      · cases noNot _ first
      · cases noBetween _ first
      · cases noIn _ first
      · rw [noMatch lexeme first] at found
        cases found

/-- An operand and its predicate fill their spelling. -/
theorem predicate_reads (sound : inner.Sound) (lexemes : List Lexeme) :
    Reads (predicate inner) lexemes (Spells .predicate lexemes) := by
  refine (operand_reads sound lexemes).bind ?_
  rintro left rest ⟨formed, filled⟩
  obtain ⟨after, leftFilled, rfl, avoids⟩ := fill_pad_eq_some.1 filled
  apply Reads.accept_bind_token
  · intro token ending
    rw [token.isKeyword_eq, Token.lexeme_of_isEof ending]
    rfl
  · -- A `NOT` is kept as a token, since it is blamed where no predicate follows.
    intro token found inside shape meant
    have isNot : token.lexeme = .keyword .not := by
      rw [token.isKeyword_eq] at meant
      split at meant
      · rename_i same
        exact beq_iff_eq.1 same
      · cases meant
    refine predicateOf_reads sound formed leftFilled ?_ nofun
    rw [shape, isNot]
    simp [notSlots]
  · -- Without it, what follows avoids the words of a predicate only as far as the rule will look.
    intro none
    refine predicateOf_reads sound formed leftFilled ?_ ?_
    · simp [notSlots]
    · intro _
      rw [skip_skip]
      refine ⟨avoids, ?_, rfl⟩
      intro lexeme first
      obtain ⟨token, rfl, unmeant⟩ := none lexeme first
      rw [token.isKeyword_eq] at unmeant
      split at unmeant
      · cases unmeant
      · rename_i other
        simpa using other

/-- A linking operator and the `NOT` after it fill the spelling of what they make. -/
theorem withNot_reads {op : BinaryOp} (link : op.isLink = true) (lexemes : List Lexeme) :
    Reads (withNot op) lexemes fun made rest =>
      made.tier = .expression ∧ fill made.slots (op.sign :: lexemes) = some rest ∧
        (made = .is → Avoids (· == .keyword .not) (skip rest)) := by
  -- Only `IS` looks further. Its slots say that no `NOT` follows, which makes the two forms
  -- exclusive.
  by_cases isIs : op = .is
  · subst isIs
    apply Reads.skipSpace_bind
    apply Reads.eatKeyword_bind
    · intro inside shape
      refine Reads.pure ⟨rfl, ?_, nofun⟩
      show fill [.keyword .is, .gap, .keyword .not] (.keyword .is :: lexemes) = some inside
      rw [fill_token, fill_gap, shape, fill_token, fill_nil]
    · intro noNot
      refine Reads.pure ⟨rfl, ?_, ?_⟩
      · show fill [.keyword .is, .gap, .notBefore (· == .keyword .not)] (.keyword .is :: lexemes) =
          some (skip lexemes)
        rw [fill_token, fill_gap, fill_notBefore (by rwa [skip_skip]), fill_nil]
      · intro _
        rwa [skip_skip]
  · rw [withNot, if_neg (by simpa using isIs)]
    refine Reads.pure ⟨?_, ?_, ?_⟩
    · cases op <;> first | rfl | cases link
    · have single : op ≠ .isNot := by
        rintro rfl
        cases link
      rw [BinaryOp.slots_eq isIs single, fill_token, fill_nil]
    · intro same
      exact absurd same isIs

/-- An expression that a `NOT` does not begin has none in front. -/
theorem leading_ne_not {right : Node} (spells : Spells .expression lexemes right rest)
    (noNot : Avoids (· == .keyword .not) (skip lexemes)) : right.leading ≠ some .not := by
  obtain ⟨formed, filled⟩ := spells
  intro leading
  rw [Node.padded, pad, List.cons_append, fill_gap] at filled
  -- The first lexeme of an expression is that of its first terminal.
  have first := formed.head?_eq filled
  rw [← formed.unaryOp?_first] at leading
  rw [Lexeme.unaryOp?_eq_some.1 leading] at first
  cases noNot _ first

/-- An expression fills its spelling. -/
theorem expression_reads (sound : inner.Sound) (lexemes : List Lexeme) :
    Reads (expression inner) lexemes (Spells .expression lexemes) := by
  refine (predicate_reads sound lexemes).bind ?_
  rintro left rest ⟨formed, filled⟩
  obtain ⟨after, leftFilled, rfl, avoids⟩ := fill_pad_eq_some.1 filled
  apply Reads.accept_bind (Lexeme.binaryOp? BinaryOp.isLink) (fun token => token.binaryOp?_eq _) rfl
  · intro lexeme first inside shape meant
    obtain ⟨rfl, _, link⟩ := Lexeme.binaryOp?_eq_some.1 meant
    refine (withNot_reads link inside).bind ?_
    rintro op stop ⟨word, opFilled, noNot⟩
    apply Reads.reshape
    refine (sound.expression stop).mono ?_
    rintro right rest ⟨rightFormed, rightFilled⟩
    -- An `IS` was read only because no `NOT` came next, so the right side does not begin with one.
    have told : op = .is → right.leading ≠ some .not := by
      intro isIs
      exact leading_ne_not ⟨rightFormed, rightFilled⟩ (noNot isIs)
    refine ⟨.link word formed rightFormed told, ?_⟩
    -- The right side is a whole expression, and ends as the whole does.
    refine fill_pad_of_flush ?_ (flush_of_pad rightFilled) ?_
    · rw [Node.spelling, BinaryOp.rightSlots_expression word]
      simp only [Bool.false_eq_true, if_false, List.append_assoc, List.cons_append, List.nil_append]
      rw [fill_append_of leftFilled, fill_gap, shape, fill_append_of opFilled]
      exact rightFilled
    · have same : (Node.binary left op right false).tier = .expression := word
      exact avoids_takes_complete (Nat.le_of_eq (congrArg Tier.rank same.symm))
  · intro noLink
    refine Reads.pure ⟨.ofPredicate formed, fill_pad leftFilled ?_⟩
    -- What could join a predicate is a link, and none was found.
    apply avoids_takes_succ _ rfl avoids
    intro lexeme first joins
    obtain ⟨op, found⟩ := Lexeme.joins?_expression joins
    rw [noLink lexeme first] at found
    cases found

end Tiers

end Grammar

end SelectSql
