import SelectSql.Proofs.Nesting.Texts

/-!
Statements at other indentations. What a node is printed as depends on the indentation around it
only through its line breaks, and each of these moves by as much as the indentation does.
-/

namespace SelectSql

/-- A piece further to the right. -/
def Piece.shift (extra : Nat) : Piece → Piece
  -- Only line breaks know how far to the right they lead.
  | .line indent => .line (indent + extra)
  | .joint (some indent) => .joint (some (indent + extra))
  | piece => piece

/-- Pieces further to the right. -/
def shifted (extra : Nat) (pieces : List Piece) : List Piece :=
  -- A connective that breaks no line at one indentation breaks none at another.
  pieces.map (Piece.shift extra)

variable {layout : ProjectionLayout} {place : Place} {pieces : List Piece} {extra indent : Nat}
  {inFilter : Bool}

section Shifting

/-- Pieces in a row move together. -/
@[simp] theorem shifted_append (first second : List Piece) :
    shifted extra (first ++ second) = shifted extra first ++ shifted extra second :=
  List.map_append

/-- Nothing stays nothing. -/
@[simp] theorem shifted_nil : shifted extra [] = [] := rfl

/-- A first piece moves with those after it. -/
@[simp] theorem shifted_cons (piece : Piece) :
    shifted extra (piece :: pieces) = piece.shift extra :: shifted extra pieces := rfl

/-- Pieces that move by nothing stay as they are. -/
theorem shifted_zero (pieces : List Piece) : shifted 0 pieces = pieces := by
  -- No piece moves by nothing, whether or not it holds an indentation.
  have stays : ∀ piece : Piece, piece.shift 0 = piece := by
    intro piece
    rcases piece with _ | _ | _ | _ | _ | _ <;> rfl
  rw [shifted, funext stays, List.map_id']

/-- A line break leads further to the right. -/
@[simp] theorem Piece.shift_line : (line indent).shift extra = line (indent + extra) := rfl

/-- A text stays as it is. -/
@[simp] theorem Piece.shift_verbatim (text : String) :
    (verbatim text).shift extra = verbatim text := rfl

/-- A space stays as it is. -/
@[simp] theorem Piece.shift_space : space.shift extra = space := rfl

/-- A symbol stays as it is. -/
@[simp] theorem Piece.shift_symbol (terminal : Terminal) :
    (symbol terminal).shift extra = symbol terminal := rfl

/-- A keyword stays as it is. -/
@[simp] theorem Piece.shift_keyword (word : Keyword) :
    (keyword word).shift extra = keyword word := rfl

/-- A mark stays as it is. -/
@[simp] theorem Piece.shift_mark (sign : Mark) : (mark sign).shift extra = mark sign := rfl

/-- What comes before an operator moves with the statement around it. -/
@[simp] theorem Place.shift_gapBefore (op : BinaryOp) :
    Piece.shift extra (gapBefore ⟨some indent, inFilter⟩ op) =
      gapBefore ⟨some (indent + extra), inFilter⟩ op := by
  -- Only a connective in a `WHERE` has a line break before it.
  unfold gapBefore
  cases op.isConnective <;> cases inFilter <;> rfl

/-- Symbols in a row stay as they are. -/
@[simp] theorem shifted_spaced (terminals : List Terminal) :
    shifted extra (Piece.spaced terminals) = Piece.spaced terminals := by
  induction terminals with
  | nil => rfl
  | cons terminal terminals ih =>
    -- There is a space between two symbols and none after the last.
    cases terminals with
    | nil => rfl
    | cons next terminals => exact congrArg (.symbol terminal :: .space :: ·) ih

/-- Modifiers stay as they are. -/
@[simp] theorem shifted_modifiers (options : List SortOption) :
    shifted extra (options.flatMap fun option => .space :: Piece.words option.keywords) =
      options.flatMap fun option => .space :: Piece.words option.keywords := by
  induction options with
  | nil => rfl
  | cons option options ih => simpa [Piece.words] using ih

/-- An operator before its operand stays as it is. -/
@[simp] theorem UnaryOp.shifted_pieces (op : UnaryOp) : shifted extra op.pieces = op.pieces := by
  cases op <;> rfl

/-- What separates projections moves with the statement around them. -/
@[simp] theorem ProjectionLayout.shifted_separator :
    shifted extra (layout.separator indent) = layout.separator (indent + extra) := by
  cases layout with
  | inline => rfl
  | wrap =>
    -- The column under the first projection moves with the statement.
    simp [separator, Nat.add_right_comm]

/-- Lists in a row move with what separates them. -/
@[simp] theorem shifted_intercalate (separator : List Piece) (lists : List (List Piece)) :
    shifted extra (List.intercalate separator lists) =
      List.intercalate (shifted extra separator) (lists.map (shifted extra)) :=
  intercalate_of_append rfl shifted_append separator lists

/-- Items with commas between them move together. -/
@[simp] theorem shifted_commaList (items : List (List Piece)) :
    shifted extra (commaList items) = commaList (items.map (shifted extra)) :=
  shifted_intercalate commaSpace items

/-- A part moves after the words that announce it. -/
@[simp] theorem map_announced (words : List Keyword) (content : Option (List Piece)) :
    (announced words content).map (shifted extra) =
      announced words (content.map (shifted extra)) := by
  cases content <;> simp [announced, Piece.words]

/-- Parts on a line of their own move with that line. -/
@[simp] theorem shifted_ownLine (parts : List (List Piece)) :
    shifted extra (ownLine indent parts) =
      ownLine (indent + extra) (parts.map (shifted extra)) := by
  cases parts with
  | nil => rfl
  | cons first parts => simp [ownLine]

/-- Parts of a choice move together, with a space after each. -/
@[simp] theorem shifted_spacedOut (parts : List (List Piece)) :
    shifted extra (parts.flatMap (· ++ [.space])) =
      (parts.map (shifted extra)).flatMap (· ++ [.space]) := by
  induction parts with
  | nil => rfl
  | cons part parts ih => simp [ih]

end Shifting

/-- The printed form of a statement at an indentation, without the line breaks around it. -/
def Select.clauses (layout : ProjectionLayout) (statement : Select) (indent : Nat) : List Piece :=
  -- Every clause knows its own statement only.
  let place : Place := ⟨some indent, false⟩
  let clause := fun (words : List Keyword) (content : Option (List Piece)) =>
    ownLine indent (announced words content)
  .keyword .select :: (if statement.distinct then [.space, .keyword .distinct] else [])
    ++ ((listPieces layout statement.projections place).map fun items =>
      .space :: List.intercalate (layout.separator indent) items).getD []
    ++ clause [.from_] ((listPieces layout statement.sources place).map commaList)
    ++ clause [.where_] (optionPieces layout statement.filter ⟨some indent, true⟩)
    ++ clause [.group, .by_] ((listPieces layout statement.groupBy place).map commaList)
    ++ clause [.order, .by_] ((orderPieces layout statement.orderBy place).map commaList)
    ++ ownLine indent (announced [.limit] (optionPieces layout statement.limit place)
      ++ announced [.offset] (optionPieces layout statement.offset place))

/-- A statement is printed as its clauses with line breaks around them. -/
theorem Select.pieces_eq_clauses (statement : Select) (place : Place) :
    statement.pieces layout place =
      (if place.enclosing.isSome then [.line place.nested] else []) ++
        statement.clauses layout place.nested ++ [.line place.indent] := by
  -- Both sides hold the same pieces, put together in another order of appending.
  cases statement
  simp only [Select.pieces, Select.clauses, Place.clause, Place.filter, List.cons_append,
    List.append_assoc]

section Trees

/-- Further to the right the printed form of a node in a statement is the same one, shifted. -/
private def Shifts (layout : ProjectionLayout) (extra : Nat) (node : Node) : Prop :=
  ∀ indent inFilter, node.pieces layout ⟨some (indent + extra), inFilter⟩ =
    shifted extra (node.pieces layout ⟨some indent, inFilter⟩)

/-- Nodes that shift do so together. -/
private theorem nodes_shift {nodes : List Node} (each : ∀ node ∈ nodes, Shifts layout extra node) :
    nodePieces layout nodes ⟨some (indent + extra), inFilter⟩ =
      (nodePieces layout nodes ⟨some indent, inFilter⟩).map (shifted extra) := by
  induction nodes with
  | nil => rfl
  | cons node nodes ih =>
    obtain ⟨first, others⟩ := List.forall_mem_cons.1 each
    simp only [nodePieces, List.map_cons, first indent inFilter, ih others]

/-- A node that may be absent shifts if it is there. -/
private theorem option_shifts {option : Option Node}
    (each : ∀ node ∈ option, Shifts layout extra node) :
    optionPieces layout option ⟨some (indent + extra), inFilter⟩ =
      (optionPieces layout option ⟨some indent, inFilter⟩).map (shifted extra) := by
  cases option with
  | none => rfl
  | some node => exact congrArg some (each node rfl indent inFilter)

/-- Branches whose nodes shift do so together. -/
private theorem branches_shift {branches : List Branch}
    (each : ∀ branch ∈ branches,
      Shifts layout extra branch.condition ∧ Shifts layout extra branch.result) :
    branchPieces layout branches ⟨some (indent + extra), inFilter⟩ =
      (branchPieces layout branches ⟨some indent, inFilter⟩).map (shifted extra) := by
  induction branches with
  | nil => rfl
  | cons branch branches ih =>
    obtain ⟨⟨condition, result⟩, others⟩ := List.forall_mem_cons.1 each
    obtain ⟨subject, value⟩ := branch
    simp [branchPieces, Branch.pieces, condition indent inFilter, result indent inFilter, ih others]

/-- Sort keys whose expressions shift do so together. -/
private theorem keys_shift {keys : List SortKey}
    (each : ∀ key ∈ keys, Shifts layout extra key.key) :
    keyPieces layout keys ⟨some (indent + extra), inFilter⟩ =
      (keyPieces layout keys ⟨some indent, inFilter⟩).map (shifted extra) := by
  induction keys with
  | nil => rfl
  | cons key keys ih =>
    obtain ⟨first, others⟩ := List.forall_mem_cons.1 each
    obtain ⟨key, options⟩ := key
    simp [keyPieces, SortKey.pieces, first indent inFilter, ih others]

/-- Nodes with commas between them shift if they are there. -/
private theorem lists_shift {content : Option (List Node)}
    (each : ∀ nodes ∈ content, ∀ node ∈ nodes, Shifts layout extra node) :
    (listPieces layout content ⟨some (indent + extra), inFilter⟩).map commaList =
      ((listPieces layout content ⟨some indent, inFilter⟩).map commaList).map
        (shifted extra) := by
  cases content with
  | none => rfl
  | some nodes => simp [listPieces, nodes_shift (each nodes rfl)]

/-- Sort keys with commas between them shift if they are there. -/
private theorem order_shifts {content : Option (List SortKey)}
    (each : ∀ keys ∈ content, ∀ key ∈ keys, Shifts layout extra (SortKey.key key)) :
    (orderPieces layout content ⟨some (indent + extra), inFilter⟩).map commaList =
      ((orderPieces layout content ⟨some indent, inFilter⟩).map commaList).map
        (shifted extra) := by
  cases content with
  | none => rfl
  | some keys => simp [orderPieces, keys_shift (each keys rfl)]

/-- Projections shift with what separates them if there are any. -/
private theorem projections_shift {content : Option (List Node)}
    (each : ∀ nodes ∈ content, ∀ node ∈ nodes, Shifts layout extra node) :
    ((listPieces layout content ⟨some (indent + extra), inFilter⟩).map fun items =>
        .space :: List.intercalate (layout.separator (indent + extra)) items).getD [] =
      shifted extra (((listPieces layout content ⟨some indent, inFilter⟩).map fun items =>
        .space :: List.intercalate (layout.separator indent) items).getD []) := by
  cases content with
  | none => rfl
  | some nodes => simp [listPieces, nodes_shift (each nodes rfl)]

/-- Nodes shift, and so do the clauses of statements. -/
private theorem trees_shift (layout : ProjectionLayout) (extra : Nat) :
    TreeInduction (Shifts layout extra) fun statement => ∀ indent,
      statement.clauses layout (indent + extra) =
        shifted extra (statement.clauses layout indent) where
  -- A node moves if its parts do. The place is taken apart in every case, since a statement inside
  -- forgets the flag of `WHERE`.
  literal text indent inFilter := by simp [Node.pieces]
  reference table name indent inFilter := by cases table <;> simp [Node.pieces]
  call name arguments each indent inFilter := by simp [Node.pieces, inParens, nodes_shift each]
  range low high lowShifts highShifts indent inFilter := by
    simp [Node.pieces, lowShifts indent inFilter, highShifts indent inFilter]
  list items each indent inFilter := by simp [Node.pieces, inParens, nodes_shift each]
  case subject branches otherwise subjectShifts branchesShift otherwiseShifts indent inFilter := by
    simp [Node.pieces, option_shifts subjectShifts, branches_shift branchesShift,
      option_shifts otherwiseShifts, Option.toList_map]
  binary left op right negated leftShifts rightShifts indent inFilter := by
    cases negated <;> simp [Node.pieces, leftShifts indent inFilter, rightShifts indent inFilter]
  unary op operand operandShifts indent inFilter := by
    simp [Node.pieces, operandShifts indent inFilter]
  parens inner innerShifts indent inFilter := by
    simp [Node.pieces, inParens, innerShifts indent inFilter]
  aliasAs inner name innerShifts indent inFilter := by
    simp [Node.pieces, innerShifts indent inFilter]
  aliasBare inner name innerShifts indent inFilter := by
    simp [Node.pieces, innerShifts indent inFilter]
  join kind left right condition leftShifts rightShifts conditionShifts indent inFilter := by
    simp [Node.pieces, JoinKind.pieces, Piece.words, Place.indent, leftShifts indent inFilter,
      rightShifts indent inFilter, option_shifts conditionShifts]
  subscript value index valueShifts indexShifts indent inFilter := by
    simp [Node.pieces, valueShifts indent inFilter, indexShifts indent inFilter]
  cast value target valueShifts targetShifts indent inFilter := by
    simp [Node.pieces, valueShifts indent inFilter, targetShifts indent inFilter]
  -- A statement stands two further to the right than the one around it, however far that is.
  select statement clausesShift indent inFilter := by
    have deeper : indent + extra + 2 = indent + 2 + extra := Nat.add_right_comm indent extra 2
    simp [Node.pieces, Select.pieces_eq_clauses, Place.nested, Place.indent, deeper,
      clausesShift (indent + 2)]
  statement distinct projections sources filter groupBy orderBy limit offset
      projectionsShift sourcesShift filterShifts groupByShift orderByShift limitShifts
      offsetShifts indent := by
    -- Neither of the first words breaks a line.
    have head : shifted extra (if distinct then [.space, .keyword .distinct] else []) =
        if distinct then [.space, .keyword .distinct] else [] := by
      cases distinct <;> rfl
    simp only [Select.clauses, projections_shift projectionsShift, lists_shift sourcesShift,
      option_shifts filterShifts, lists_shift groupByShift, order_shifts orderByShift,
      option_shifts limitShifts, option_shifts offsetShifts, shifted_append, shifted_cons,
      Piece.shift_keyword, head, shifted_ownLine, List.map_append, map_announced]

/-- Further to the right the clauses of a statement are the same ones, shifted. -/
theorem Select.clauses_shift (statement : Select) (layout : ProjectionLayout)
    (indent extra : Nat) :
    statement.clauses layout (indent + extra) = shifted extra (statement.clauses layout indent) :=
  (trees_shift layout extra).whole statement indent

end Trees

end SelectSql
