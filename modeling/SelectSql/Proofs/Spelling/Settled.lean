import SelectSql.Proofs.Spelling.Spaced

/-!
Expressions leave nothing open. Whatever follows an expression where the grammar places it is no
part of it, so every look ahead of its spelling passes and only white space can go wrong.
-/

namespace SelectSql

variable {slots others : List Slot} {lexeme : Lexeme} {tier lower upper limit : Tier}
  {node left right : Node} {op : BinaryOp}

section Clearing

/-- A lexeme that joins nothing is clear of every tier. -/
theorem Lexeme.clear_of_none (none : lexeme.joins? = none) (other : lexeme.extendsName = false) :
    lexeme.Clear tier := by
  -- There is no tier at which it could join.
  refine ⟨?_, other⟩
  intro upper joins
  rw [none] at joins
  cases joins

/-- A symbol that joins nothing is clear where it comes first. -/
theorem clear_symbol {terminal : Terminal} (none : (Lexeme.symbol terminal).joins? = none)
    (other : (Lexeme.symbol terminal).extendsName = false) :
    ∀ next ∈ (solids (.token (.symbol terminal) :: slots)).head?, next.Clear tier := by
  intro next first
  obtain rfl := Option.some.inj first
  exact Lexeme.clear_of_none none other

/-- A lexeme is clear of the tiers below that where it joins. -/
theorem Lexeme.clear_of_joins (joins : lexeme.joins? = some upper) (above : lower.rank < upper.rank)
    (other : lexeme.extendsName = false) : lexeme.Clear lower := by
  refine ⟨?_, other⟩
  intro tier same
  rw [joins] at same
  rw [← Option.some.inj same]
  exact above

/-- A symbol is clear of the tiers below that where it joins, where it comes first. -/
theorem clear_joining {terminal : Terminal} (joins : (Lexeme.symbol terminal).joins? = some upper)
    (above : lower.rank < upper.rank) (other : (Lexeme.symbol terminal).extendsName = false) :
    ∀ next ∈ (solids (.token (.symbol terminal) :: slots)).head?, next.Clear lower := by
  intro next first
  obtain rfl := Option.some.inj first
  exact Lexeme.clear_of_joins joins above other

/-- What is clear of a tier is clear of those below it. -/
theorem Lexeme.Clear.mono (clear : lexeme.Clear upper) (below : lower.rank ≤ upper.rank) :
    lexeme.Clear lower := by
  refine ⟨?_, clear.2⟩
  intro tier joins
  have above := clear.1 tier joins
  omega

/-- What is clear of a tier is not taken by an expression that is read up to it. -/
theorem Lexeme.Clear.takes (clear : lexeme.Clear limit) : node.takes limit lexeme = false := by
  cases taken : node.takes limit lexeme with
  | false => rfl
  -- What is taken joins at most at the limit, and what is clear of it joins above.
  | true =>
    obtain ⟨tier, joins, _, below⟩ := Node.takes_eq_true.1 taken
    have above := clear.1 tier joins
    omega

end Clearing

namespace Settles

/-- Slots that settle before what is clear of one tier do so before what is clear of one above. -/
theorem mono (settles : Settles lower slots) (below : lower.rank ≤ upper.rank) :
    Settles upper slots := by
  intro others clear sure
  -- What follows is clear of less than it has to be.
  apply settles others _ sure
  intro next first
  exact (clear next first).mono below

/-- An expression settles with the white space around it. -/
theorem pad (settles : Settles limit slots) (node : Node)
    (clear : ∀ next ∈ (solids others).head?, next.Clear limit) (sure : Sure (.gap :: others)) :
    Sure (SelectSql.pad limit node slots ++ others) := by
  simp only [SelectSql.pad, List.cons_append, List.append_assoc]
  -- The expression settles before its own look ahead, which passes since what follows is clear.
  apply settles (.notBefore (node.takes limit) :: others) clear
  apply Sure.gap_notBefore _ sure
  intro next first
  exact (clear next first).takes

/-- An expression settles before one more gap as well. -/
theorem pad_gap (settles : Settles limit slots) (node : Node)
    (clear : ∀ next ∈ (solids others).head?, next.Clear limit) (sure : Sure (.gap :: others)) :
    Sure (SelectSql.pad limit node slots ++ .gap :: others) :=
  settles.pad node clear sure.gap_gap

/-- A list of expressions settles before its parenthesis. -/
theorem commaList {nodes : List Node} (each : ∀ node ∈ nodes, Settles .expression node.spelling)
    (closed : (solids others).head? = some (.mark .closeParen)) (sure : Sure (.gap :: others)) :
    Sure (.gap :: (commaSlots noComma (paddedAll nodes) ++ others)) := by
  -- The parenthesis ends an expression and is no comma.
  have ending : ∀ next ∈ (solids others).head?, next.Clear .expression ∧
      (next == .mark .comma) = false := by
    intro next first
    rw [closed] at first
    obtain rfl := Option.some.inj first
    exact ⟨Lexeme.clear_of_none rfl rfl, rfl⟩
  -- The induction is on the items, from the last of them, whose look ahead sees the parenthesis.
  induction nodes with
  | nil => exact sure
  | cons node nodes ih =>
    have first := each node (by simp)
    cases nodes with
    | nil =>
      have last := sure.gap_notBefore fun next first => (ending next first).2
      have settled : Sure (SelectSql.pad .expression node node.spelling ++
          .notBefore (· == .mark .comma) :: others) :=
        first.pad node (fun next first => (ending next first).1) last
      simpa [commaSlots, paddedAll, noComma, SelectSql.pad] using settled.gap_gap
    | cons next nodes =>
      have rest := ih fun node member => each node (List.mem_cons_of_mem _ member)
      -- The gap after the comma is that of the next expression.
      obtain ⟨more, begins⟩ := @leads_paddedAll noComma (next :: nodes) (by simp)
      rw [begins] at rest
      have comma : Sure (.gap :: .mark .comma :: .gap :: (more ++ others)) :=
        rest.of_gap_gap.symbol (fun _ => trivial)
      have settled := first.pad node (clear_symbol rfl rfl) comma
      rw [← List.cons_append, ← begins] at settled
      simpa [commaSlots, paddedAll, SelectSql.pad] using settled.gap_gap

/-- Branches settle before whatever may follow the last. -/
theorem branches {branches : List Branch}
    (conditions : ∀ branch ∈ branches, Settles .expression branch.condition.spelling)
    (results : ∀ branch ∈ branches, Settles .expression branch.result.spelling)
    (clear : ∀ next ∈ (solids others).head?, next.Clear .expression)
    (sure : Sure (.gap :: others)) :
    (∀ next ∈ (solids (branchSlots branches ++ others)).head?, next.Clear .expression) ∧
      Sure (.gap :: (branchSlots branches ++ others)) := by
  -- The induction goes from the last branch to the first: what follows a branch is clear and sure.
  induction branches with
  | nil => exact ⟨clear, sure⟩
  | cons branch branches ih =>
    obtain ⟨clear, sure⟩ :=
      ih (fun branch member => conditions branch (List.mem_cons_of_mem _ member))
        (fun branch member => results branch (List.mem_cons_of_mem _ member))
    obtain ⟨condition, result⟩ := branch
    -- A branch is built from its end, the result first and the `WHEN` last.
    have second := (results ⟨condition, result⟩ (by simp)).pad result clear sure
    have then_ : Sure (.gap :: .keyword .then_ :: _) := Sure.symbol (fun _ => trivial) second
    have first := (conditions ⟨condition, result⟩ (by simp)).pad condition
      (clear_symbol rfl rfl) then_
    have when : Sure (.gap :: .keyword .when :: _) := Sure.symbol (fun _ => trivial) first
    refine ⟨clear_symbol rfl rfl, ?_⟩
    simpa [branchSlots, Branch.slots, SelectSql.pad] using when

/-- A part of a choice that may be absent settles as what follows it does. -/
theorem part {part : Option Node} (settles : ∀ node ∈ part, Settles .expression node.spelling)
    (clear : ∀ next ∈ (solids others).head?, next.Clear .expression)
    (sure : Sure (.gap :: others)) :
    Sure (.gap :: (paddedOption [] part ++ others)) := by
  -- Without the part there is nothing in front of what follows.
  cases part with
  | none => exact sure
  | some node => exact ((settles node rfl).pad node clear sure).gap_gap

/-- The part after `ELSE` settles as what follows it does. -/
theorem otherwise {part : Option Node}
    (settles : ∀ node ∈ part, Settles .expression node.spelling)
    (clear : ∀ next ∈ (solids others).head?, next.Clear .expression)
    (sure : Sure (.gap :: others)) :
    (∀ next ∈ (solids (paddedOption [.keyword .else_] part ++ others)).head?,
        next.Clear .expression) ∧
      Sure (.gap :: (paddedOption [.keyword .else_] part ++ others)) := by
  cases part with
  | none => exact ⟨clear, sure⟩
  | some node =>
    -- The `ELSE` is what follows then, and it joins nothing.
    refine ⟨clear_symbol rfl rfl, ?_⟩
    exact Sure.symbol (fun _ => trivial) ((settles node rfl).pad node clear sure)

/-- An operator is sure before its right operand, with no `NOT` first after a bare `IS`. -/
theorem operator (told : op = .is → ∀ next ∈ (solids slots).head?, next ≠ .keyword .not)
    (sure : Sure (.gap :: slots)) : Sure (.gap :: (op.slots ++ .gap :: slots)) := by
  -- Only the two `IS` take more than the slot of one symbol.
  by_cases affirmed : op = .is
  · subst affirmed
    have apart : ∀ next ∈ (solids (.gap :: slots)).head?, (next == .keyword .not) = false := by
      intro next first
      rw [beq_eq_false_iff_ne]
      exact told rfl next first
    exact Sure.symbol (fun _ => trivial) (sure.gap_gap.gap_notBefore apart)
  by_cases denied : op = .isNot
  · subst denied
    exact Sure.symbol (fun _ => trivial) (Sure.symbol (fun _ => trivial) sure)
  · rw [BinaryOp.slots_eq affirmed denied]
    cases op <;> first | exact absurd rfl denied | exact Sure.symbol (fun _ => trivial) sure

/-- Two operands settle with an operator between them if the right one does. -/
theorem binary {negated : Bool} {more : List Slot}
    (leads : op.rightSlots right right.spelling = .gap :: more)
    (before : Settles lower left.spelling) (above : lower.rank < op.tier.rank)
    (negatable : negated = true → lower.rank < Tier.predicate.rank)
    (told : op = .is → ∀ others, ∀ next ∈ (solids (more ++ others)).head?, next ≠ .keyword .not)
    (after : ∀ others, (∀ next ∈ (solids others).head?, next.Clear tier) → Sure (.gap :: others) →
      Sure (.gap :: (more ++ .gap :: others))) :
    Settles tier (Node.binary left op right negated).spelling := by
  intro others clear sure
  have last := operator (fun same => told same _) (after others clear sure)
  -- The left operand sees the sign of the operator first, which joins on a higher tier.
  have first : ∀ slots : List Slot, (solids (op.slots ++ slots)).head? = some op.sign := by
    intro slots
    cases op <;> rfl
  rw [Node.spelling, leads]
  -- With a `NOT` in front, it is the `NOT` that the left operand sees.
  cases negated with
  | false =>
    have whole := before _ (fun next among => by
      rw [first] at among
      obtain rfl := Option.some.inj among
      exact Lexeme.clear_of_joins op.joins?_sign above (by cases op <;> rfl)) last
    simpa using whole
  | true =>
    have denied : Sure (.gap :: .keyword .not :: .gap :: _) := Sure.symbol (fun _ => trivial) last
    have whole := before _ (clear_joining rfl (negatable rfl) rfl) denied
    simpa using whole

end Settles

/-- No expression begins with white space. -/
theorem Formed.first_ne_space (formed : Formed tier node) : node.first ≠ .space := by
  intro same
  have starts := formed.starts
  rw [same] at starts
  cases starts

/-- An expression comes first with its first lexeme. -/
theorem Formed.head?_solids (formed : Formed tier node) :
    (solids (node.spelling ++ slots)).head? = some node.first := by
  obtain ⟨more, begins⟩ := formed.spelling_eq
  rw [begins, List.cons_append, solids_token formed.first_ne_space]
  rfl

/-- Every expression settles before what is clear of its tier. -/
theorem Formed.settles (formed : Formed tier node) : Settles tier node.spelling := by
  -- The induction is on the rules. What follows the tree follows its last part, and before that
  -- each part is followed by a symbol of the rule.
  induction formed with
  | @literal text admitted =>
    intro others clear sure
    -- White space may follow a literal and need not.
    rcases admitted with literal | rfl | rfl
    · have solid : Lexeme.literal text ≠ .space := by simp
      rw [Node.spelling, literal.ofText_eq]
      exact Sure.token solid (by simp) (fun _ _ => trivial) sure
    · exact Sure.symbol (fun _ => trivial) sure
    · exact Sure.symbol (fun _ => trivial) sure
  | @reference name named =>
    intro others clear sure
    rw [Node.spelling, named.ofText_eq]
    -- A name alone must not be touched by what would extend it.
    exact Sure.reference (fun next first => (clear next first).2) sure
  | @member table name held named =>
    intro others clear sure
    rw [Node.spelling, held.ofText_eq]
    rcases named with named | rfl
    · have solid : Lexeme.name name ≠ .space := by simp
      rw [named.ofText_eq]
      exact Sure.member solid
        (fun lexemes same => suits_name same fun next first => (clear next first).2) sure
    · have solid : Lexeme.mark .star ≠ .space := by simp
      exact Sure.member solid (fun _ _ => trivial) sure
  | @call name arguments named each ih =>
    intro others clear sure
    -- The arguments settle before the parenthesis that closes the call.
    have closed : Sure (.gap :: .mark .closeParen :: .gap :: others) :=
      Sure.symbol (fun _ => trivial) sure
    have held := Settles.commaList ih rfl closed
    have whole := Sure.call name held
    rw [Node.spelling, named.ofText_eq]
    simpa using whole
  | @case subject branches otherwise first nonempty conditions results last
      firstIh conditionIh resultIh lastIh =>
    intro others clear sure
    -- From the `END` backwards, each part of the choice settles before the next.
    have ending : Sure (.gap :: .keyword .end_ :: .gap :: others) :=
      Sure.symbol (fun _ => trivial) sure
    obtain ⟨clear, sure⟩ := Settles.otherwise lastIh (clear_symbol rfl rfl) ending
    obtain ⟨clear, sure⟩ := Settles.branches conditionIh resultIh clear sure
    have whole := Sure.case (Settles.part firstIh clear sure)
    simpa [Node.spelling] using whole
  | @parens inner held ih =>
    intro others clear sure
    have closed : Sure (.gap :: .mark .closeParen :: .gap :: others) :=
      Sure.symbol (fun _ => trivial) sure
    have inside := ih.pad inner (clear_symbol rfl rfl) closed
    have whole : Sure (.gap :: .mark .openParen :: _) := Sure.symbol (fun _ => trivial) inside
    simpa [Node.spelling, pad] using whole
  | @subscript value index _ inside baseIh insideIh =>
    intro others clear sure
    have closed : Sure (.gap :: .mark .closeBracket :: .gap :: others) :=
      Sure.symbol (fun _ => trivial) sure
    have held := insideIh.pad index (clear_symbol rfl rfl) closed
    -- The base of an index is followed by the bracket, which is beyond its tier.
    have bracket : Sure (.gap :: .mark .openBracket :: _) := Sure.symbol (fun _ => trivial) held
    have whole := baseIh _ (clear_joining rfl (by decide) rfl) bracket
    simpa [Node.spelling, pad] using whole
  | @cast value target _ type baseIh typeIh =>
    intro others clear sure
    -- The target is an atom, so it settles before anything the conversion settles before.
    have target := typeIh.mono (by decide) others clear sure
    have sign : Sure (.gap :: .mark .doubleColon :: .gap :: _) :=
      Sure.symbol (fun _ => trivial) target
    have whole := baseIh _ (clear_joining rfl (by decide) rfl) sign
    simpa [Node.spelling] using whole
  | @unary op operand under ih =>
    intro others clear sure
    -- The operand of a prefix reaches as far as the whole does.
    have settled := ih.pad_gap operand clear sure
    have whole : Sure (.gap :: .token (.symbol op.terminal) :: _) :=
      Sure.symbol (fun _ => by cases op <;> trivial) settled
    simpa [Node.spelling, pad] using whole
  | @arithmetic left right op sign _ _ leftIh rightIh =>
    have shape := @BinaryOp.rightSlots_operand right op right.spelling (Or.inl sign)
    have above : Tier.suffixed.rank < op.tier.rank := by
      rw [BinaryOp.tier_of_isArithmetic sign]
      decide
    refine Settles.binary shape leftIh above (by simp) ?_ ?_
    · rintro rfl
      cases sign
    · intro others clear sure
      exact rightIh.pad_gap right clear sure
  | @between left low high negated _ _ _ leftIh lowIh highIh =>
    refine Settles.binary rfl leftIh (by decide) (fun _ => by decide) (by simp) ?_
    intro others clear sure
    have second := highIh.pad_gap high (fun next first => (clear next first).mono (by decide)) sure
    -- The lower end is followed by the `AND` of the range, which joins above operands.
    have word : Sure (.gap :: .keyword .and :: _) := Sure.symbol (fun _ => trivial) second
    have first := lowIh.pad low (clear_joining rfl (by decide) rfl) word
    simpa [pad] using first
  | @in_ left items negated _ nonempty each leftIh itemIh =>
    refine Settles.binary rfl leftIh (by decide) (fun _ => by decide) (by simp) ?_
    intro others clear sure
    have closed : Sure (.gap :: .mark .closeParen :: .gap :: .gap :: others) :=
      Sure.symbol (fun _ => trivial) sure.gap_gap
    have held := Settles.commaList itemIh rfl closed
    -- The parenthesis is followed by the gap of the first value.
    obtain ⟨more, begins⟩ := @leads_paddedAll noComma items nonempty
    rw [begins] at held
    have whole : Sure (.gap :: .mark .openParen :: .gap :: _) :=
      Sure.symbol (fun _ => trivial) held.of_gap_gap
    simpa [Node.spelling, begins] using whole
  | @match_ left right op negated sign _ _ leftIh rightIh =>
    have shape := @BinaryOp.rightSlots_operand right op right.spelling (Or.inr sign)
    have above : Tier.operand.rank < op.tier.rank := by
      rw [BinaryOp.tier_of_isMatch sign]
      decide
    refine Settles.binary shape leftIh above (fun _ => by decide) ?_ ?_
    · rintro rfl
      cases sign
    · intro others clear sure
      exact rightIh.pad_gap right (fun next first => (clear next first).mono (by decide)) sure
  | @link left right op word _ formed told leftIh rightIh =>
    have shape := @BinaryOp.rightSlots_expression right op right.spelling word
    refine Settles.binary shape leftIh (by rw [word]; decide) (by simp) ?_ ?_
    · -- The right side of an `IS` does not begin with a `NOT`, which the rule has ruled out.
      intro affirmed others next first negation
      rw [List.append_eq, List.append_assoc, formed.head?_solids] at first
      have leading := formed.unaryOp?_first
      rw [Option.some.inj first, negation] at leading
      exact told affirmed leading.symm
    · intro others clear sure
      exact rightIh.pad_gap right clear sure
  | ofAtom _ ih | ofIndexed _ ih | ofSuffixed _ ih | ofOperand _ ih | ofPredicate _ ih =>
    exact ih.mono (by decide)

end SelectSql
