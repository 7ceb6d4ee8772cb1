import SelectSql.Proofs.Nested

/-!
Expressions spelled on one line, or with the gap before each connective chosen. The printed form at
a place is this spelling with the gap of that place, whatever the layout.
-/

namespace SelectSql

section Parts

mutual

/-- A node with all nodes that are parts of it, statements inside it being taken as a whole. -/
def Node.within : Node → List Node
  -- What a statement holds has a place of its own and is not counted here.
  | .literal text => [.literal text]
  | .reference table name => [.reference table name]
  | .call name arguments => .call name arguments :: nodesWithin arguments
  | .range low high => .range low high :: (low.within ++ high.within)
  | .list items => .list items :: nodesWithin items
  | .case subject branches otherwise => .case subject branches otherwise ::
    (optionWithin subject ++ branchesWithin branches ++ optionWithin otherwise)
  | .binary left op right negated =>
    .binary left op right negated :: (left.within ++ right.within)
  | .unary op operand => .unary op operand :: operand.within
  | .parens inner => .parens inner :: inner.within
  | .aliasAs inner name => .aliasAs inner name :: inner.within
  | .aliasBare inner name => .aliasBare inner name :: inner.within
  | .join kind left right condition => .join kind left right condition ::
    (left.within ++ right.within ++ optionWithin condition)
  | .subscript value index => .subscript value index :: (value.within ++ index.within)
  | .cast value target => .cast value target :: (value.within ++ target.within)
  | .select statement => [.select statement]

/-- Nodes with all their parts. -/
def nodesWithin : List Node → List Node
  | [] => []
  | node :: nodes => node.within ++ nodesWithin nodes

/-- A node that may be absent with all its parts. -/
def optionWithin : Option Node → List Node
  | none => []
  | some node => node.within

/-- The nodes of a branch with all their parts. -/
def Branch.within : Branch → List Node
  | ⟨condition, result⟩ => condition.within ++ result.within

/-- The nodes of branches with all their parts. -/
def branchesWithin : List Branch → List Node
  | [] => []
  | branch :: branches => branch.within ++ branchesWithin branches

end

/-- Whether a node begins lines of its own: a join or a statement. -/
def Node.beginsLines : Node → Bool
  -- All other nodes are printed on the line where they stand.
  | .join .. | .select _ => true
  | _ => false

/-- Whether a node is two conditions joined by a connective. -/
def Node.isConnection : Node → Bool
  -- The `AND` of a range belongs to no operator.
  | .binary _ op _ _ => op.isConnective
  | _ => false

/-- Whether there is neither a join nor a statement in a node. -/
def Node.InLine (node : Node) : Prop :=
  -- The node itself is one of its parts.
  ∀ part ∈ node.within, part.beginsLines = false

/-- The number of connectives in a node. -/
def Node.connectives (node : Node) : Nat :=
  -- They are counted at every depth.
  node.within.countP Node.isConnection

end Parts

section Spelling

mutual

/-- The spelling of an expression, with a given text in front of each connective. -/
def Node.spelled (gap : String) : Node → String
  -- A negated operator has its `NOT` after that text.
  | .literal text => text
  | .reference none name => name
  | .reference (some table) name => table ++ "." ++ name
  | .call name arguments => name ++ "(" ++ ", ".intercalate (nodesSpelled gap arguments) ++ ")"
  | .range low high => low.spelled gap ++ " AND " ++ high.spelled gap
  | .list items => "(" ++ ", ".intercalate (nodesSpelled gap items) ++ ")"
  | .case subject branches otherwise =>
    -- Every part is followed by a space, so the `END` needs none before it.
    "CASE " ++ optionSpelled gap "" subject ++ branchesSpelled gap branches
      ++ optionSpelled gap "ELSE " otherwise ++ "END"
  | .binary left op right negated =>
    left.spelled gap ++ (if op.isConnective then gap else " ")
      ++ (if negated then "NOT " else "") ++ op.text ++ " " ++ right.spelled gap
  | .unary op operand =>
    op.text ++ (if op.isWord then " " else "") ++ operand.spelled gap
  | .parens inner => "(" ++ inner.spelled gap ++ ")"
  | .aliasAs inner name => inner.spelled gap ++ " AS " ++ name
  | .aliasBare inner name => inner.spelled gap ++ " " ++ name
  | .subscript value index => value.spelled gap ++ "[" ++ index.spelled gap ++ "]"
  | .cast value target => value.spelled gap ++ "::" ++ target.spelled gap
  -- Neither a join nor a statement is spelled on the line of an expression.
  | .join .. | .select _ => ""

/-- The spellings of expressions. -/
def nodesSpelled (gap : String) : List Node → List String
  | [] => []
  | node :: nodes => node.spelled gap :: nodesSpelled gap nodes

/-- The spelling of a part of a choice with the word before it and a space after it, if it is
there. -/
def optionSpelled (gap word : String) : Option Node → String
  | none => ""
  | some node => word ++ node.spelled gap ++ " "

/-- The spelling of a branch, with a space after it. -/
def Branch.spelled (gap : String) : Branch → String
  | ⟨condition, result⟩ =>
    "WHEN " ++ condition.spelled gap ++ " THEN " ++ result.spelled gap ++ " "

/-- The spellings of branches in a row. -/
def branchesSpelled (gap : String) : List Branch → String
  | [] => ""
  | branch :: branches => branch.spelled gap ++ branchesSpelled gap branches

end

/-- What is printed before a connective at a place. -/
def Place.gap (place : Place) : String :=
  -- In a `WHERE` a connective begins a line, which is indented as the statement is.
  if place.inFilter then "\n" ++ spaces place.indent else " "

end Spelling

section Pieces

variable {layout : ProjectionLayout} {place : Place}

/-- What stands before an operator is the gap of the place if it is a connective, else a space. -/
theorem Place.text_gapBefore (place : Place) (op : BinaryOp) :
    (place.gapBefore op).text = if op.isConnective then place.gap else " " := by
  unfold gapBefore gap
  cases op.isConnective with
  | false => rfl
  | true =>
    cases place.inFilter with
    | false => rfl
    | true => exact Piece.lineText_eq place.indent

/-- Items between separators make the texts of the items between the text of the separator. -/
theorem concat_intercalate (separator : List Piece) (items : List (List Piece)) :
    Piece.concat (List.intercalate separator items) =
      (Piece.concat separator).intercalate (items.map Piece.concat) := by
  -- A separator stands only where a further item follows.
  induction items with
  | nil => rfl
  | cons first items ih =>
    cases items with
    | nil => rw [List.intercalate_singleton, List.map_singleton, String.intercalate_singleton]
    | cons next items =>
      rw [List.intercalate_cons_cons, Piece.concat_append, Piece.concat_append, ih]
      simp only [List.map_cons, String.intercalate_cons_cons]

/-- Items of a list are separated by a comma and a space. -/
theorem concat_commaList (items : List (List Piece)) :
    Piece.concat (commaList items) = ", ".intercalate (items.map Piece.concat) :=
  concat_intercalate commaSpace items

/-- Parentheses stand around what they hold. -/
theorem concat_inParens (pieces : List Piece) :
    Piece.concat (inParens pieces) = "(" ++ Piece.concat pieces ++ ")" := by
  rw [inParens, Piece.concat_append, Piece.concat_cons, Piece.concat_singleton]
  rfl

/-- An operator is printed as it is spelled. -/
theorem BinaryOp.concat_terminals (op : BinaryOp) :
    Piece.concat (Piece.spaced op.terminals) = op.text := by
  cases op <;> rfl

/-- The printed form of a node at any place is its spelling with the gap of that place. -/
private def PrintsAs (layout : ProjectionLayout) (node : Node) : Prop :=
  -- Joins and statements have other places within them.
  node.InLine → ∀ place : Place, Piece.concat (node.pieces layout place) = node.spelled place.gap

/-- Nodes in a row are printed as they are spelled. -/
private theorem concat_nodes {nodes : List Node} (each : ∀ node ∈ nodes, PrintsAs layout node)
    (plain : ∀ part ∈ nodesWithin nodes, part.beginsLines = false) :
    (nodePieces layout nodes place).map Piece.concat = nodesSpelled place.gap nodes := by
  induction nodes with
  | nil => rfl
  | cons node nodes ih =>
    obtain ⟨first, others⟩ := List.forall_mem_cons.1 each
    obtain ⟨inside, beyond⟩ := List.forall_mem_append.1 plain
    rw [nodePieces, List.map_cons, first inside place, ih others beyond, nodesSpelled]

/-- The subject of a choice is printed as it is spelled, with a space after it. -/
private theorem concat_subject {subject : Option Node}
    (each : ∀ node ∈ subject, PrintsAs layout node)
    (plain : ∀ part ∈ optionWithin subject, part.beginsLines = false) :
    Piece.concat ((optionPieces layout subject place).toList.flatMap (· ++ [.space])) =
      optionSpelled place.gap "" subject := by
  cases subject with
  | none => rfl
  | some node =>
    have spells := each node rfl plain place
    rw [optionPieces, Option.toList_some, List.flatMap_singleton, Piece.concat_append,
      Piece.concat_singleton, spells, optionSpelled, String.empty_append]
    rfl

/-- The `ELSE` of a choice is printed as it is spelled, with a space after it. -/
private theorem concat_otherwise {otherwise : Option Node}
    (each : ∀ node ∈ otherwise, PrintsAs layout node)
    (plain : ∀ part ∈ optionWithin otherwise, part.beginsLines = false) :
    Piece.concat ((announced [.else_] (optionPieces layout otherwise place)).flatMap
      (· ++ [.space])) = optionSpelled place.gap "ELSE " otherwise := by
  cases otherwise with
  | none => rfl
  | some node =>
    have spells := each node rfl plain place
    have word : Piece.concat [.keyword .else_, .space] = "ELSE " := by decide +kernel
    show Piece.concat ([.keyword .else_, .space] ++ node.pieces layout place ++ [.space] ++ []) = _
    rw [List.append_nil, Piece.concat_append, Piece.concat_append, Piece.concat_singleton, word,
      spells, optionSpelled]
    rfl

/-- Branches are printed as they are spelled, with a space after each. -/
private theorem concat_branches {branches : List Branch}
    (each : ∀ branch ∈ branches, PrintsAs layout branch.condition ∧ PrintsAs layout branch.result)
    (plain : ∀ part ∈ branchesWithin branches, part.beginsLines = false) :
    Piece.concat ((branchPieces layout branches place).flatMap (· ++ [.space])) =
      branchesSpelled place.gap branches := by
  have first : Piece.concat [.keyword .when, .space] = "WHEN " := by decide +kernel
  have second : Piece.concat [.space, .keyword .then_, .space] = " THEN " := by decide +kernel
  induction branches with
  | nil => rfl
  | cons branch branches ih =>
    obtain ⟨⟨tested, taken⟩, others⟩ := List.forall_mem_cons.1 each
    obtain ⟨inside, beyond⟩ := List.forall_mem_append.1 plain
    obtain ⟨condition, result⟩ := branch
    obtain ⟨before, after⟩ := List.forall_mem_append.1 inside
    -- The first branch is cut into its words and its two nodes, ahead of the other branches.
    show Piece.concat (([.keyword .when, .space] ++ condition.pieces layout place ++
      [.space, .keyword .then_, .space] ++ result.pieces layout place ++ [.space]) ++
        (branchPieces layout branches place).flatMap (· ++ [.space])) = _
    simp only [Piece.concat_append, Piece.concat_singleton]
    rw [ih others beyond, first, second, tested before place, taken after place, branchesSpelled,
      Branch.spelled]
    rfl

/-- Expressions are printed as they are spelled, by induction over the tree. -/
private theorem spells_trees (layout : ProjectionLayout) :
    TreeInduction (PrintsAs layout) fun _ => True where
  literal text _ place := Piece.concat_singleton _
  reference table name _ place := by
    cases table with
    | none => exact Piece.concat_singleton _
    | some table =>
      rw [Node.pieces, Piece.concat_cons, Piece.concat_cons, Piece.concat_singleton,
        ← String.append_assoc]
      rfl
  call name arguments each plain place := by
    -- The node itself begins no lines, so the parts inside are what has to be known of.
    have inside := (List.forall_mem_cons.1 plain).2
    rw [Node.pieces, Piece.concat_cons, concat_inParens, concat_commaList,
      concat_nodes each inside, Node.spelled]
    simp only [String.append_assoc]
    rfl
  range low high lowSpells highSpells plain place := by
    obtain ⟨below, above⟩ := List.forall_mem_append.1 (List.forall_mem_cons.1 plain).2
    have word : Piece.concat [.space, .keyword .and, .space] = " AND " := by decide +kernel
    rw [Node.pieces, Piece.concat_append, Piece.concat_append, lowSpells below place,
      highSpells above place, word, Node.spelled]
  list items each plain place := by
    have inside := (List.forall_mem_cons.1 plain).2
    rw [Node.pieces, concat_inParens, concat_commaList, concat_nodes each inside, Node.spelled]
  case subject branches otherwise subjectSpells branchesSpell otherwiseSpells plain place := by
    -- The subject, the branches and the `ELSE` are parts in a row, each with a space after it.
    obtain ⟨parts, last⟩ := List.forall_mem_append.1 (List.forall_mem_cons.1 plain).2
    obtain ⟨first, middle⟩ := List.forall_mem_append.1 parts
    have before : Piece.concat [.keyword .case, .space] = "CASE " := by decide +kernel
    have after : (Piece.keyword .end_).text = "END" := by decide +kernel
    show Piece.concat ([.keyword .case, .space] ++ ((optionPieces layout subject place).toList ++
      branchPieces layout branches place ++
        announced [.else_] (optionPieces layout otherwise place)).flatMap (· ++ [.space]) ++
          [.keyword .end_]) = _
    rw [Piece.concat_append, Piece.concat_append, List.flatMap_append, List.flatMap_append,
      Piece.concat_append, Piece.concat_append, concat_subject subjectSpells first,
      concat_branches branchesSpell middle, concat_otherwise otherwiseSpells last,
      Piece.concat_singleton, before, after, Node.spelled]
    simp only [String.append_assoc]
  binary left op right negated leftSpells rightSpells plain place := by
    obtain ⟨before, after⟩ := List.forall_mem_append.1 (List.forall_mem_cons.1 plain).2
    have negation : Piece.concat (if negated then [.keyword .not, .space] else []) =
        if negated then "NOT " else "" := by cases negated <;> decide +kernel
    -- Only what stands before the operator depends on the place.
    rw [Node.pieces, Piece.concat_append, Piece.concat_append, Piece.concat_append,
      Piece.concat_cons, Piece.concat_cons, leftSpells before place, rightSpells after place,
      place.text_gapBefore, negation, op.concat_terminals, Node.spelled]
    simp only [String.append_assoc]
    rfl
  unary op operand operandSpells plain place := by
    have inside := (List.forall_mem_cons.1 plain).2
    have sign : Piece.concat op.pieces = op.text ++ if op.isWord then " " else "" := by
      cases op <;> rfl
    rw [Node.pieces, Piece.concat_append, sign, operandSpells inside place, Node.spelled]
  parens inner innerSpells plain place := by
    have inside := (List.forall_mem_cons.1 plain).2
    rw [Node.pieces, concat_inParens, innerSpells inside place, Node.spelled]
  aliasAs inner name innerSpells plain place := by
    have inside := (List.forall_mem_cons.1 plain).2
    have word : Piece.concat [.space, .keyword .as, .space] = " AS " := by decide +kernel
    show Piece.concat (inner.pieces layout place ++
      ([.space, .keyword .as, .space] ++ [.verbatim name])) = _
    rw [Piece.concat_append, Piece.concat_append, innerSpells inside place, word,
      Piece.concat_singleton, Node.spelled, String.append_assoc]
    rfl
  aliasBare inner name innerSpells plain place := by
    have inside := (List.forall_mem_cons.1 plain).2
    rw [Node.pieces, Piece.concat_append, innerSpells inside place, Piece.concat_cons,
      Piece.concat_singleton, Node.spelled, String.append_assoc]
    rfl
  join kind left right condition _ _ _ plain place := by
    -- A join begins lines, which the node must not.
    have begins := (List.forall_mem_cons.1 plain).1
    cases begins
  subscript value index valueSpells indexSpells plain place := by
    obtain ⟨before, after⟩ := List.forall_mem_append.1 (List.forall_mem_cons.1 plain).2
    rw [Node.pieces, Piece.concat_append, Piece.concat_append, Piece.concat_cons,
      Piece.concat_singleton, valueSpells before place, indexSpells after place, Node.spelled]
    simp only [String.append_assoc]
    rfl
  cast value target valueSpells targetSpells plain place := by
    obtain ⟨before, after⟩ := List.forall_mem_append.1 (List.forall_mem_cons.1 plain).2
    rw [Node.pieces, Piece.concat_append, Piece.concat_cons, valueSpells before place,
      targetSpells after place, Node.spelled, String.append_assoc]
    rfl
  select statement _ plain place := by
    have begins := (List.forall_mem_cons.1 plain).1
    cases begins
  statement := fun _ _ _ _ _ _ _ _ _ _ _ _ _ _ _ => trivial

/-- An expression is printed at any place as it is spelled with the gap of that place. -/
theorem Node.concat_pieces {node : Node} (plain : node.InLine) (layout : ProjectionLayout)
    (place : Place) : Piece.concat (node.pieces layout place) = node.spelled place.gap :=
  (spells_trees layout).node node plain place

end Pieces

end SelectSql
