import SelectSql.Proofs.Layouts.Widened

/-!
The two layouts of a tree. They differ in white space only, and they differ at all exactly if some
statement in the tree has projections to separate.
-/

namespace SelectSql

section Trees

/-- The printed forms of a node in the two layouts, at any place. -/
private def NodeWidens (node : Node) : Prop :=
  ∀ place, Widens node.statements (node.pieces .wrap place) (node.pieces .inline place)

/-- Nodes are printed one by one. -/
private theorem nodes_widen {nodes : List Node} (each : ∀ node ∈ nodes, NodeWidens node)
    (place : Place) :
    WidensEach (nodeStatements nodes) (nodePieces .wrap nodes place)
      (nodePieces .inline nodes place) := by
  induction nodes with
  | nil => exact .nil
  | cons node nodes ih =>
    obtain ⟨first, others⟩ := List.forall_mem_cons.1 each
    exact .cons (first place) (ih others)

/-- A node that may be absent is printed if it is there. -/
private theorem option_widens {option : Option Node} (each : ∀ node ∈ option, NodeWidens node)
    (place : Place) :
    WidensEach (optionStatements option) (optionPieces .wrap option place).toList
      (optionPieces .inline option place).toList := by
  cases option with
  | none => exact .nil
  | some node => exact .single (each node rfl place)

/-- Branches are printed one by one. -/
private theorem branches_widen {branches : List Branch}
    (each : ∀ branch ∈ branches, NodeWidens branch.condition ∧ NodeWidens branch.result)
    (place : Place) :
    WidensEach (branchStatements branches) (branchPieces .wrap branches place)
      (branchPieces .inline branches place) := by
  induction branches with
  | nil => exact .nil
  | cons branch branches ih =>
    obtain ⟨⟨tested, taken⟩, others⟩ := List.forall_mem_cons.1 each
    obtain ⟨condition, result⟩ := branch
    -- A branch is its condition between two words, and then its result.
    refine .cons ?_ (ih others)
    exact (((tested place).after [.keyword .when, .space]).before _).append (taken place)

/-- Sort keys are printed one by one. -/
private theorem keys_widen {keys : List SortKey} (each : ∀ key ∈ keys, NodeWidens key.key)
    (place : Place) :
    WidensEach (keyStatements keys) (keyPieces .wrap keys place)
      (keyPieces .inline keys place) := by
  induction keys with
  | nil => exact .nil
  | cons key keys ih =>
    obtain ⟨first, others⟩ := List.forall_mem_cons.1 each
    obtain ⟨key, options⟩ := key
    -- The modifiers stand after the key and are the same in both layouts.
    exact .cons ((first place).before _) (ih others)

/-- The nodes of a clause are printed with commas between them, if they are there. -/
private theorem clause_widens {content : Option (List Node)}
    (each : ∀ nodes ∈ content, ∀ node ∈ nodes, NodeWidens node) (place : Place) :
    WidensEach (listStatements content)
      ((listPieces .wrap content place).map commaList).toList
      ((listPieces .inline content place).map commaList).toList := by
  cases content with
  | none => exact .nil
  | some nodes => exact .single ((nodes_widen (each nodes rfl) place).intercalate commaSpace)

/-- The keys of an ordering are printed with commas between them, if they are there. -/
private theorem order_widens {content : Option (List SortKey)}
    (each : ∀ keys ∈ content, ∀ key ∈ keys, NodeWidens (SortKey.key key)) (place : Place) :
    WidensEach (orderStatements content)
      ((orderPieces .wrap content place).map commaList).toList
      ((orderPieces .inline content place).map commaList).toList := by
  cases content with
  | none => exact .nil
  | some keys => exact .single ((keys_widen (each keys rfl) place).intercalate commaSpace)

/-- Items in one layout are as many as there are nodes. -/
private theorem length_nodePieces (layout : ProjectionLayout) (nodes : List Node)
    (place : Place) :
    (nodePieces layout nodes place).length = nodes.length := by
  induction nodes with
  | nil => rfl
  | cons node nodes ih => exact congrArg Nat.succ ih

/-- The projections of a statement are where the two layouts differ. -/
private theorem projections_widen (statement : Select)
    (each : ∀ nodes ∈ statement.projections, ∀ node ∈ nodes, NodeWidens node) (place : Place)
    (indent : Nat) :
    Widens (statement :: listStatements statement.projections)
      (((listPieces .wrap statement.projections place).map fun items =>
        .space :: List.intercalate (ProjectionLayout.wrap.separator indent) items).getD [])
      (((listPieces .inline statement.projections place).map fun items =>
        .space :: List.intercalate (ProjectionLayout.inline.separator indent) items).getD []) := by
  -- Only the number of projections matters from here on, so the other clauses are forgotten.
  have width : statement.width = (statement.projections.getD []).length := rfl
  generalize statement.projections = content at each width ⊢
  cases content with
  | none =>
    refine (Widens.plain []).cons_of_lt ?_
    rw [width]
    exact Nat.zero_lt_two
  | some nodes =>
    -- In either layout there are as many items to separate as there are projections.
    have many : statement.width = (nodePieces .wrap nodes place).length := by
      rw [length_nodePieces, width]
      rfl
    exact ((nodes_widen (each nodes rfl) place).projections many indent).after [.space]

/-- Nodes are printed in both layouts, and so are statements, by induction over trees. -/
private theorem trees_widen : TreeInduction NodeWidens fun statement => ∀ place,
    Widens statement.statements (statement.pieces .wrap place)
      (statement.pieces .inline place) where
  -- The parts of a node are compared in the order in which they are printed.
  literal text place := .plain _
  reference table name place := by cases table <;> exact .plain _
  call name arguments each place :=
    ((nodes_widen each place).intercalate commaSpace).inParens.after [.verbatim name]
  range low high lowWidens highWidens place :=
    ((lowWidens place).before _).append (highWidens place)
  list items each place := ((nodes_widen each place).intercalate commaSpace).inParens
  case subject branches otherwise subjectWidens branchesWiden otherwiseWidens place :=
    ((((option_widens subjectWidens place).append (branches_widen branchesWiden place)).append
      ((option_widens otherwiseWidens place).announced _)).spacedOut.after
        [.keyword .case, .space]).before _
  binary left op right negated leftWidens rightWidens place :=
    (((leftWidens place).before _).before _).append ((rightWidens place).after [.space])
  unary op operand operandWidens place := (operandWidens place).after _
  parens inner innerWidens place := (innerWidens place).inParens
  aliasAs inner name innerWidens place := (innerWidens place).before _
  aliasBare inner name innerWidens place := (innerWidens place).before _
  join kind left right condition leftWidens rightWidens conditionWidens place :=
    (((leftWidens place).before _).append ((rightWidens place).after [.space])).append
      (((option_widens conditionWidens place).announced _).ownLine _)
  subscript value index valueWidens indexWidens place :=
    ((valueWidens place).append ((indexWidens place).after [.mark .openBracket])).before _
  cast value target valueWidens targetWidens place :=
    (valueWidens place).append ((targetWidens place).after [.mark .doubleColon])
  select statement statementWidens place := statementWidens place
  -- Only the projections are laid out differently; the other clauses are compared in their order.
  statement distinct projections sources filter groupBy orderBy limit offset
      projectionsWiden sourcesWiden filterWidens groupByWiden orderByWiden limitWidens
      offsetWidens place := by
    have head := (projections_widen
      ⟨distinct, projections, sources, filter, groupBy, orderBy, limit, offset⟩
      projectionsWiden place.clause place.nested).after
        ((if place.enclosing.isSome then [.line place.nested] else []) ++
          .keyword .select :: (if distinct then [.space, .keyword .distinct] else []))
    have sources := (clause_widens sourcesWiden place.clause).announced [.from_]
    have filter := (option_widens filterWidens place.filter).announced [.where_]
    have groupBy := (clause_widens groupByWiden place.clause).announced [.group, .by_]
    have orderBy := (order_widens orderByWiden place.clause).announced [.order, .by_]
    have limit := (option_widens limitWidens place.clause).announced [.limit]
    have offset := (option_widens offsetWidens place.clause).announced [.offset]
    exact (((((head.append (sources.ownLine _)).append (filter.ownLine _)).append
      (groupBy.ownLine _)).append (orderBy.ownLine _)).append
      ((limit.append offset).ownLine _)).before _

end Trees

/-- The texts of a tree in the two layouts are the same but for white space, and they are the same
text exactly if no statement in the tree has several projections. -/
theorem format_layouts (node : Node) :
    solidChars (node.format ⟨.wrap⟩) = solidChars (node.format ⟨.inline⟩) ∧
      (node.format ⟨.wrap⟩ = node.format ⟨.inline⟩ ↔
        ∀ statement ∈ node.statements, statement.width < 2) := by
  -- A tree that is printed on its own is printed from the outermost place.
  have widens := trees_widen.node node .top
  rw [Node.format_eq, Node.format_eq]
  refine ⟨widens.solid, fun same statement member => ?_, fun slim => ?_⟩
  · -- Several projections would make one of the two texts longer.
    refine Nat.lt_of_not_le fun several => ?_
    have more := widens.longer statement member several
    rw [same] at more
    exact Nat.lt_irrefl _ more
  · -- With nothing to separate there is one form.
    rw [widens.same slim]

end SelectSql
