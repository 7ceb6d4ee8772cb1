import SelectSql.Proofs.Printing.Fits

/-!
The printed form of expressions. Every expression of every tier is printed so that its pieces spell
it, before anything that may come after an expression.
-/

namespace SelectSql

variable {layout : ProjectionLayout} {tier : Tier} {node : Node} {place : Place}
  {slots others left right : List Slot} {pieces rest before after : List Piece}

/-- Nodes are printed one by one. -/
theorem nodePieces_eq (nodes : List Node) :
    nodePieces layout nodes place = nodes.map fun node => node.pieces layout place := by
  induction nodes with
  | nil => rfl
  | cons node nodes ih => rw [nodePieces, ih, List.map_cons]

/-- A node that may be absent is printed if it is there. -/
theorem optionPieces_eq (node : Option Node) :
    optionPieces layout node place = node.map fun node => node.pieces layout place := by
  cases node <;> rfl

section Beginning

/-- An expression is printed from its first lexeme on. -/
theorem Formed.pieces_eq (formed : Formed tier node) (layout : ProjectionLayout) (place : Place) :
    ∃ piece more, node.pieces layout place = piece :: more ∧ piece.lexeme = node.first := by
  -- What has a part in front is printed from that part on, down to an atom or a prefix.
  induction formed with
  | subscript _ _ ih _ | cast _ _ ih _ | arithmetic _ _ _ ih _ | between _ _ _ ih _ _
  | in_ _ _ _ ih _ | match_ _ _ _ ih _ | link _ _ _ _ ih _ =>
    obtain ⟨piece, more, begins, first⟩ := ih
    simp only [Node.pieces, begins, List.cons_append]
    exact ⟨piece, _, rfl, first⟩
  | ofAtom _ ih | ofIndexed _ ih | ofSuffixed _ ih | ofOperand _ ih | ofPredicate _ ih => exact ih
  | @unary op _ _ _ => cases op <;> exact ⟨_, _, rfl, rfl⟩
  | _ => exact ⟨_, _, rfl, rfl⟩

/-- An expression may be printed right after a mark. -/
theorem Formed.opens (formed : Formed tier node) : Opens (node.pieces layout place ++ rest) := by
  obtain ⟨piece, more, begins, first⟩ := formed.pieces_eq layout place
  rw [begins]
  -- What begins an expression never lengthens a mark.
  apply opens_of_starts
  rw [first]
  exact formed.starts

/-- Expressions with commas between them may be printed right after a mark. -/
theorem opens_commaList {nodes : List Node} (each : ∀ node ∈ nodes, Formed tier node)
    (opens : Opens rest) : Opens (commaList (nodePieces layout nodes place) ++ rest) := by
  -- Only the first expression matters, and without one it is what follows.
  cases nodes with
  | nil => exact opens
  | cons node nodes =>
    have formed := each node (by simp)
    cases nodes with
    | nil => simpa [commaList, nodePieces, List.intercalate] using formed.opens
    | cons next nodes =>
      simpa [commaList, nodePieces, List.intercalate] using formed.opens

end Beginning

section Parts

/-- Expressions with commas between them are printed as they are spelled. -/
theorem Prints.nodes {nodes : List Node}
    (each : ∀ node ∈ nodes, Prints (node.spelling ++ [.gap]) (node.pieces layout place)) :
    Prints (commaSlots noComma (paddedAll nodes))
      (SelectSql.commaList (nodePieces layout nodes place)) := by
  rw [paddedAll_eq, nodePieces_eq]
  -- A comma is followed by a space, which falls into the gap of the next expression.
  apply Prints.commaList rfl (fun node _ => ⟨_, rfl⟩)
  intro node member
  exact (each node member).pad .expression node

/-- A bracket may come right after an expression, and so may whatever else closes one. -/
theorem breaks_mark {sign : Mark} (breaks : (Lexeme.mark sign).breaks = true) :
    Breaks (.mark sign :: rest) := by
  intro next first
  obtain rfl := Option.some.inj first
  exact breaks

/-- What is printed between parentheses is spelled so. -/
theorem Prints.inParens (opens : ∀ rest, Opens rest → Opens (pieces ++ rest))
    (prints : Prints (.gap :: slots) pieces) :
    Prints (.mark .openParen :: .gap :: slots ++ [.mark .closeParen, .gap]) (inParens pieces) := by
  intro others rest breaks fits
  have close : Breaks (.mark .closeParen :: rest) := breaks_mark rfl
  -- What stands in the parentheses is printed before the closing one, which may touch it.
  have inside := prints _ _ close (Fits.last (.mark .closeParen) trivial rfl breaks fits)
  simp only [SelectSql.inParens, List.cons_append, List.append_assoc]
  exact Fits.mark .openParen (opens _ close.opens) inside.of_gap_gap

/-- An operator is printed with a space after it. -/
theorem Fits.operator (op : BinaryOp) (fits : Fits (.gap :: slots) pieces) :
    Fits (.gap :: op.slots ++ .gap :: slots)
      (Piece.spaced op.terminals ++ .space :: pieces) := by
  have spaced := fits.space
  have space : Breaks (.space :: pieces) := breaks_blank rfl
  -- Only the two `IS` take more than the slot of one symbol.
  by_cases affirmed : op = .is
  · subst affirmed
    -- Printed text has a look ahead to pass after `IS`, and looks are not asked here.
    exact Fits.last (.keyword .is) trivial rfl space (spaced.gap_gap.gap_notBefore _)
  by_cases denied : op = .isNot
  · subst denied
    exact (spaced.last (.keyword .not) trivial rfl space).keyword .is
  · have single : ∃ terminal, op.terminals = [terminal] ∧ op.sign = .symbol terminal := by
      cases op <;> first | exact ⟨_, rfl, rfl⟩ | exact absurd rfl denied
    obtain ⟨terminal, alone, sign⟩ := single
    rw [BinaryOp.slots_eq affirmed denied, alone, sign]
    exact Fits.last (.symbol terminal) trivial rfl space spaced

/-- Two operands are printed with an operator between them. -/
theorem Prints.binary {left right : Node} (op : BinaryOp) (negated : Bool)
    (leads : ∃ more, op.rightSlots right right.spelling = .gap :: more)
    (first : Prints (left.spelling ++ [.gap]) (left.pieces layout place))
    (second : Prints (op.rightSlots right right.spelling) (right.pieces layout place)) :
    Prints ((Node.binary left op right negated).spelling ++ [.gap])
      ((Node.binary left op right negated).pieces layout place) := by
  intro others rest breaks fits
  obtain ⟨more, begins⟩ := leads
  -- The right side is printed first, the left one before whatever comes after it.
  have last := second (.gap :: others) rest breaks fits.gap_gap
  rw [begins] at last
  have last := last.of_gap_gap.operator op
  -- Before the operator there is white space, a line break within a `WHERE` and a space elsewhere.
  have gapBlank : (place.gapBefore op).isBlank = true := by
    unfold Place.gapBefore
    split <;> rfl
  rw [Node.spelling, Node.pieces, begins]
  -- The `NOT` is one more keyword between the left side and the operator.
  cases negated with
  | false =>
    have printed := first.followed (breaks_blank gapBlank) (last.gap_blank gapBlank)
    simpa using printed
  | true =>
    have printed := first.followed (breaks_blank gapBlank) ((last.keyword .not).gap_blank gapBlank)
    simpa using printed

/-- Branches are printed with a space after each. -/
theorem Fits.branches {branches : List Branch}
    (conditions : ∀ branch ∈ branches,
      Prints (branch.condition.spelling ++ [.gap]) (branch.condition.pieces layout place))
    (results : ∀ branch ∈ branches,
      Prints (branch.result.spelling ++ [.gap]) (branch.result.pieces layout place))
    (fits : Fits (.gap :: slots) pieces) :
    Fits (.gap :: (branchSlots branches ++ slots))
      ((branchPieces layout branches place).flatMap (· ++ [.space]) ++ pieces) := by
  -- The induction goes from the last branch to the first, each printed before those after it.
  induction branches with
  | nil => exact fits
  | cons branch branches ih =>
    have others := ih (fun branch member => conditions branch (List.mem_cons_of_mem _ member))
      (fun branch member => results branch (List.mem_cons_of_mem _ member))
    obtain ⟨condition, result⟩ := branch
    -- A branch is printed from its end.
    have second := (results ⟨condition, result⟩ (by simp)).padded .expression result
      (breaks_blank rfl) others.space
    have first := (conditions ⟨condition, result⟩ (by simp)).padded .expression condition
      (breaks_blank rfl) (second.keyword .then_).space
    have printed := first.keyword .when
    simpa [branchSlots, branchPieces, Branch.slots, Branch.pieces, pad] using printed

/-- A part of a choice is printed with a space after it, if it is there. -/
theorem Fits.part {part : Option Node}
    (prints : ∀ node ∈ part, Prints (node.spelling ++ [.gap]) (node.pieces layout place))
    (fits : Fits (.gap :: slots) pieces) :
    Fits (.gap :: (paddedOption [] part ++ slots))
      ((optionPieces layout part place).toList.flatMap (· ++ [.space]) ++ pieces) := by
  cases part with
  | none => exact fits
  | some node =>
    have printed := (prints node rfl).padded .expression node (breaks_blank rfl) fits.space
    simpa [paddedOption, optionPieces, pad] using printed.gap_gap

/-- The part after `ELSE` is printed with a space after it, if it is there. -/
theorem Fits.otherwise {part : Option Node}
    (prints : ∀ node ∈ part, Prints (node.spelling ++ [.gap]) (node.pieces layout place))
    (fits : Fits (.gap :: slots) pieces) :
    Fits (.gap :: (paddedOption [.keyword .else_] part ++ slots))
      ((announced [.else_] (optionPieces layout part place)).flatMap (· ++ [.space])
        ++ pieces) := by
  cases part with
  | none => exact fits
  | some node =>
    have printed := (prints node rfl).padded .expression node (breaks_blank rfl) fits.space
    -- The `ELSE` is printed in front of its part.
    have announcement := printed.keyword .else_
    simpa [paddedOption, optionPieces, announced, Piece.words, Piece.spaced, Piece.keyword, pad]
      using announcement

end Parts

section Whole

/-- A name may be followed by whatever may come after an expression. -/
theorem Lexeme.extendsName_of_breaks {lexeme : Lexeme} (breaks : lexeme.breaks = true) :
    lexeme.extendsName = false := by
  -- A name is extended by a point and by an opening parenthesis only.
  rcases lexeme with (_ | sign) | _ | _ | _ | _
  · rfl
  · cases sign <;> first | rfl | cases breaks
  all_goals rfl

/-- Every expression is printed as it is spelled. -/
theorem Formed.prints (formed : Formed tier node) (layout : ProjectionLayout) (place : Place) :
    Prints (node.spelling ++ [.gap]) (node.pieces layout place) := by
  -- The induction is on the rules. Each tree is printed from its last piece to its first, since
  -- what fits depends on what comes after.
  induction formed with
  | @literal text admitted =>
    intro others rest breaks fits
    -- A literal text is a number, a string, or one of the two symbols.
    have sound : (Piece.verbatim text).Sound := by
      rcases admitted with literal | null | star
      · exact Or.inr (Or.inl literal)
      · exact Or.inr (Or.inr (Or.inl null))
      · exact Or.inr (Or.inr (Or.inr star))
    exact Fits.last (.verbatim text) sound rfl breaks fits
  | @reference name named =>
    intro others rest breaks fits
    apply Fits.last (.verbatim name) (Or.inl named) rfl breaks
    -- What may come after an expression does not extend a name.
    apply Fits.notTouching _ fits
    intro next first
    exact Lexeme.extendsName_of_breaks (breaks next first)
  | @member table name held named =>
    intro others rest breaks fits
    have sound : (Piece.verbatim name).Sound := by
      rcases named with named | star
      · exact Or.inl named
      · exact Or.inr (Or.inr (Or.inr star))
    have starts : (Piece.verbatim name).lexeme.starts = true := by
      rcases named with named | rfl
      · rw [Piece.lexeme, named.ofText_eq]
        rfl
      · decide
    -- The point touches both names.
    have second := Fits.closing (.verbatim name) sound rfl breaks fits
    have point := Fits.token (.mark .dot) trivial rfl
      (fun next first => opens_of_starts starts next first .dot) second
    have known : (Piece.verbatim table).Sound := Or.inl held
    apply Fits.gap_solid known rfl
    apply Fits.token (.verbatim table) known rfl _ point
    intro next first
    obtain rfl := Option.some.inj first
    rw [Piece.lexeme, held.ofText_eq]
    rfl
  | @call name arguments named each ih =>
    intro others rest breaks fits
    have inside := Prints.inParens (fun _ => opens_commaList each) (Prints.nodes ih).gap
    have known : (Piece.verbatim name).Sound := Or.inl named
    have mark : (Piece.mark .openParen).Sound := trivial
    have listed := Fits.of_gap_solid mark rfl (inside others rest breaks fits)
    -- The parenthesis touches the name.
    have printed := Fits.gap_solid known rfl (Fits.token (.verbatim name) known rfl (by
      intro next first
      obtain rfl := Option.some.inj first
      rw [Piece.lexeme, named.ofText_eq]
      rfl) listed)
    simpa [Node.spelling, Node.pieces, Piece.lexeme, inParens] using printed
  | @case subject branches otherwise first nonempty conditions results last
      firstIh conditionIh resultIh lastIh =>
    intro others rest breaks fits
    -- A choice is printed from its `END` back to its `CASE`, after which white space must stand.
    have ending := Fits.last (.keyword .end_) trivial rfl breaks fits
    have parts := Fits.part firstIh
      (Fits.branches conditionIh resultIh (Fits.otherwise lastIh ending))
    have whole := Fits.last (.keyword .case) trivial rfl (breaks_blank rfl) parts.blank_space
    simpa [Node.spelling, Node.pieces, Piece.lexeme, Piece.keyword] using whole
  | @parens inner held ih =>
    have prints := Prints.inParens (fun _ _ => held.opens) (ih.pad .expression inner)
    simpa [Node.spelling, Node.pieces, pad] using prints
  | @subscript value index _ inside baseIh insideIh =>
    intro others rest breaks fits
    -- A bracket may touch what is indexed, as it may any expression.
    have closed := Fits.last (.mark .closeBracket) trivial rfl breaks fits
    have held := insideIh.padded .expression index (breaks_mark rfl) closed
    have whole := baseIh.followed (breaks_mark rfl) (Fits.mark .openBracket inside.opens held)
    simpa [Node.spelling, Node.pieces, pad, Piece.mark, Piece.lexeme] using whole
  | @cast value target _ type baseIh typeIh =>
    intro others rest breaks fits
    -- No white space is printed on either side of the double colon.
    have target := typeIh.followed breaks fits
    have whole := baseIh.followed (breaks_mark rfl) (Fits.mark .doubleColon type.opens target)
    simpa [Node.spelling, Node.pieces] using whole
  | @unary op operand under ih =>
    intro others rest breaks fits
    have printed := ih.padded .operand operand breaks fits.gap_gap
    -- A sign touches its operand and a word does not.
    have whole : Fits (.gap :: .token (.symbol op.terminal) ::
        (pad .operand operand operand.spelling ++ .gap :: others))
        (op.pieces ++ (operand.pieces layout place ++ rest)) := by
      cases op with
      | plus => exact Fits.mark .plus under.opens printed
      | minus => exact Fits.mark .minus under.opens printed
      | not => exact printed.keyword .not
      | distinct => exact printed.keyword .distinct
    simpa [Node.spelling, Node.pieces] using whole
  | @arithmetic left right op sign _ _ leftIh rightIh =>
    have shape := @BinaryOp.rightSlots_operand right op right.spelling (Or.inl sign)
    apply Prints.binary op false ⟨_, shape⟩ leftIh
    rw [shape]
    exact rightIh.pad .operand right
  | @between left low high negated _ _ _ leftIh lowIh highIh =>
    apply Prints.binary .between negated ⟨_, rfl⟩ leftIh
    intro others rest breaks fits
    -- The `AND` of a range stands between spaces.
    have second := highIh.padded .operand high breaks fits
    have first := lowIh.padded .operand low (breaks_blank rfl) (second.keyword .and).space
    simpa [BinaryOp.rightSlots, Node.spelling, Node.pieces, pad] using first.gap_gap
  | @in_ left items negated _ nonempty each leftIh itemIh =>
    apply Prints.binary .in_ negated ⟨_, rfl⟩ leftIh
    -- The gap after the parenthesis is that of the first value.
    obtain ⟨more, begins⟩ := @leads_paddedAll noComma items nonempty
    have prints := Prints.nodes itemIh
    rw [begins] at prints
    have held := (Prints.inParens (fun _ => opens_commaList each) prints).gap
    simpa [BinaryOp.rightSlots, Node.spelling, Node.pieces, begins] using held
  | @match_ left right op negated sign _ _ leftIh rightIh =>
    have shape := @BinaryOp.rightSlots_operand right op right.spelling (Or.inr sign)
    apply Prints.binary op negated ⟨_, shape⟩ leftIh
    rw [shape]
    exact rightIh.pad .operand right
  | @link left right op word _ _ _ leftIh rightIh =>
    have shape := @BinaryOp.rightSlots_expression right op right.spelling word
    apply Prints.binary op false ⟨_, shape⟩ leftIh
    rw [shape]
    exact rightIh.pad .expression right
  | ofAtom _ ih | ofIndexed _ ih | ofSuffixed _ ih | ofOperand _ ih | ofPredicate _ ih => exact ih

end Whole

end SelectSql
