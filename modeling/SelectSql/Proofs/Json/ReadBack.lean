import SelectSql.Json.Read
import SelectSql.Proofs.Json.Loosened
import SelectSql.Syntax.Induction

/-!
Trees read back from their JSON form. What is read is the tree that was written, also if members of
records have been moved or added since then or absent parts have been left out.
-/

namespace SelectSql

variable {value : Json}

/-- A node is read from everything that says the same as its JSON form. -/
private def Restored (node : Node) : Prop :=
  -- The form itself is among these values.
  ∀ value, Loosened node.toJson value → Node.ofJson? value = some node

/-- Nodes are read one by one. -/
private theorem nodesOfJson?_eq {nodes : List Node} (each : ∀ node ∈ nodes, Restored node)
    {items : List Json} (loosened : List.Forall₂ Loosened (nodesToJson nodes) items) :
    nodesOfJson? items = some nodes := by
  induction nodes generalizing items with
  | nil =>
    cases loosened
    rw [nodesOfJson?]
  | cons node nodes ih =>
    obtain ⟨first, others⟩ := List.forall_mem_cons.1 each
    cases loosened with
    | cons head tail =>
      rw [nodesOfJson?, first _ head, ih others tail]
      rfl

/-- The nodes of an array are read one by one. -/
private theorem arrayOfJson?_eq {nodes : List Node} (each : ∀ node ∈ nodes, Restored node)
    (loosened : Loosened (.array (nodesToJson nodes)) value) :
    arrayOfJson? value = some nodes := by
  -- An array says the same only as an array whose items do.
  obtain ⟨items, rfl, inside⟩ := loosened.items
  rw [arrayOfJson?, nodesOfJson?_eq each inside]

/-- A node that may be absent is read, and so is its absence. -/
private theorem optionOfJson?_eq {option : Option Node} (each : ∀ node ∈ option, Restored node)
    (loosened : Loosened (optionToJson option) value) : optionOfJson? value = some option := by
  cases option with
  | none =>
    -- An absent part is written as `null`, and only `null` says the same.
    have nothing : value = .null := loosened.eq_of_scalar rfl
    rw [nothing, optionOfJson?]
  | some node =>
    have read : Node.ofJson? value = some node := each node rfl value loosened
    -- No node is read from `null`.
    cases value with
    | null => simp [Node.ofJson?] at read
    | _ => simp [optionOfJson?, read]

/-- A list that may be absent is read, and so is its absence. -/
private theorem listOfJson?_eq {list : Option (List Node)}
    (each : ∀ nodes ∈ list, ∀ node ∈ nodes, Restored node)
    (loosened : Loosened (listToJson list) value) : listOfJson? value = some list := by
  cases list with
  | none =>
    have nothing : value = .null := loosened.eq_of_scalar rfl
    rw [nothing, listOfJson?]
  | some nodes =>
    have read : arrayOfJson? value = some nodes := arrayOfJson?_eq (each nodes rfl) loosened
    obtain ⟨items, rfl, _⟩ := Loosened.items loosened
    simp [listOfJson?, read]

/-- A row count that may be absent is read, and so is its absence. -/
private theorem countOfJson?_eq {count : Option Node} (each : ∀ node ∈ count, Restored node)
    (loosened : Loosened (countToJson count) value) : countOfJson? value = some count := by
  cases count with
  | none =>
    have nothing : value = .null := loosened.eq_of_scalar rfl
    rw [nothing, countOfJson?]
  | some node =>
    -- A row count is a record with one part.
    obtain ⟨members, rfl, part⟩ := Loosened.parts loosened ["expr"] (by decide) rfl
    have read := each node rfl _ (part "expr" (by decide))
    simp [countOfJson?, Json.part, Json.parts, read]

/-- Branches are read one by one. -/
private theorem branchListOfJson?_eq {branches : List Branch}
    (each : ∀ branch ∈ branches, Restored branch.condition ∧ Restored branch.result)
    {items : List Json} (loosened : List.Forall₂ Loosened (branchesToJson branches) items) :
    branchListOfJson? items = some branches := by
  induction branches generalizing items with
  | nil =>
    cases loosened
    rw [branchListOfJson?]
  | cons branch branches ih =>
    obtain ⟨⟨tested, taken⟩, others⟩ := List.forall_mem_cons.1 each
    obtain ⟨condition, result⟩ := branch
    cases loosened with
    | cons head tail =>
      -- A branch is a record, whose parts are found by their keys in any order.
      obtain ⟨members, rfl, part⟩ :=
        Loosened.parts head ["condition", "result"] (by decide) rfl
      have before := tested _ (part "condition" (by decide))
      have after := taken _ (part "result" (by decide))
      simp [branchListOfJson?, Json.part, Json.parts, before, after, ih others tail]

/-- The names of modifiers are texts, which stay as they are and lead back to the modifiers. -/
private theorem names?_eq {options : List SortOption}
    (loosened : Loosened (.array (options.map fun option => .string option.name)) value) :
    value.names?.bind (·.mapM SortOption.ofName?) = some options := by
  obtain ⟨items, rfl, each⟩ := loosened.items
  -- Texts have no members to move, so the array is as it was.
  have texts : ∀ item ∈ options.map fun option => Json.string option.name,
      item.isScalar = true := by
    intro item member
    obtain ⟨option, _, rfl⟩ := List.mem_map.1 member
    rfl
  have names : Json.names? (.array (options.map fun option => .string option.name)) =
      some (options.map SortOption.name) := by
    rw [Json.names?, List.mapM_map]
    exact List.mapM_pure
  -- Each name leads back to its modifier, and so does the whole row.
  have read : (options.map SortOption.name).mapM SortOption.ofName? = some options := by
    rw [List.mapM_map, funext (f := SortOption.ofName? ∘ SortOption.name) SortOption.ofName?_name]
    exact List.mapM_pure.trans (congrArg some (List.map_id options))
  rw [Loosened.eq_of_scalars each texts, names, Option.bind_some, read]

/-- Sort keys are read one by one. -/
private theorem keysOfJson?_eq {keys : List SortKey} (each : ∀ key ∈ keys, Restored key.key)
    {items : List Json} (loosened : List.Forall₂ Loosened (keysToJson keys) items) :
    keysOfJson? items = some keys := by
  induction keys generalizing items with
  | nil =>
    cases loosened
    rw [keysOfJson?]
  | cons key keys ih =>
    obtain ⟨first, others⟩ := List.forall_mem_cons.1 each
    obtain ⟨inner, options⟩ := key
    cases loosened with
    | cons head tail =>
      obtain ⟨members, rfl, part⟩ := Loosened.parts head ["key", "options"] (by decide) rfl
      have read := first _ (part "key" (by decide))
      -- The modifiers are names, so no node has to be read for them.
      have modifiers := names?_eq (part "options" (by decide))
      simp [keysOfJson?, Json.part, Json.parts, read, modifiers, ih others tail]

/-- An ordering that may be absent is read, and so is its absence. -/
private theorem orderOfJson?_eq {order : Option (List SortKey)}
    (each : ∀ keys ∈ order, ∀ key ∈ keys, Restored (SortKey.key key))
    (loosened : Loosened (orderToJson order) value) : orderOfJson? value = some order := by
  cases order with
  | none =>
    have nothing : value = .null := loosened.eq_of_scalar rfl
    rw [nothing, orderOfJson?]
  | some keys =>
    obtain ⟨items, rfl, inside⟩ := Loosened.items loosened
    rw [orderOfJson?, keysOfJson?_eq (each keys rfl) inside]
    rfl

/-- A name and what it is given to are found in the record that holds both. -/
private theorem named_parts {name : String} {inner : Node} (innerReads : Restored inner)
    (loosened : Loosened (.object [("name", .string name), ("expr", inner.toJson)]) value) :
    ∃ members, value = .object members ∧ Json.member members "name" = .string name ∧
      Node.ofJson? (Json.member members "expr") = some inner := by
  obtain ⟨members, rfl, part⟩ := loosened.parts ["name", "expr"] (by decide) rfl
  exact ⟨members, rfl, (part "name" (by decide)).eq_of_scalar rfl,
    innerReads _ (part "expr" (by decide))⟩

/-- Trees are read back from all that says the same, by induction over the tree. -/
private theorem reads_trees : TreeInduction Restored fun statement =>
    ∀ value, Loosened statement.toJson value → Select.ofJson? value = some statement where
  literal text value loosened := by
    -- A text is as it was, while the records below are asked for their parts one by one.
    obtain ⟨content, rfl, inner⟩ := loosened.content_of_atom (by decide)
    cases inner.eq_of_scalar rfl
    rw [Node.ofJson?, atomOfJson?]
  reference table name value loosened := by
    obtain ⟨content, rfl, inner⟩ := loosened.content_of_atom (by decide)
    obtain ⟨members, rfl, part⟩ := inner.parts ["table", "name"] (by decide) rfl
    have named : Json.member members "name" = .string name :=
      (part "name" (by decide)).eq_of_scalar rfl
    have qualified : Json.member members "table" = .ofText? table :=
      (part "table" (by decide)).eq_of_scalar (by cases table <;> rfl)
    rw [Node.ofJson?, atomOfJson?, named, qualified]
    cases table <;> rfl
  call name arguments each value loosened := by
    obtain ⟨content, rfl, inner⟩ := loosened.content_of_atom (by decide)
    obtain ⟨members, rfl, part⟩ := inner.parts ["name", "args"] (by decide) rfl
    have named : Json.member members "name" = .string name :=
      (part "name" (by decide)).eq_of_scalar rfl
    have read := arrayOfJson?_eq each (part "args" (by decide))
    rw [Node.ofJson?, atomOfJson?, named, read]
    rfl
  range low high lowReads highReads value loosened := by
    obtain ⟨content, rfl, inner⟩ := loosened.content_of_atom (by decide)
    obtain ⟨members, rfl, part⟩ := inner.parts ["low", "high"] (by decide) rfl
    have below := lowReads _ (part "low" (by decide))
    have above := highReads _ (part "high" (by decide))
    rw [Node.ofJson?, atomOfJson?, below, above]
    rfl
  list items each value loosened := by
    obtain ⟨content, rfl, inner⟩ := loosened.content_of_atom (by decide)
    rw [Node.ofJson?, atomOfJson?, arrayOfJson?_eq each inner]
    rfl
  case subject branches otherwise subjectReads branchesRead otherwiseReads value loosened := by
    obtain ⟨content, rfl, inner⟩ := loosened.content_of_atom (by decide)
    obtain ⟨members, rfl, part⟩ :=
      inner.parts ["subject", "branches", "otherwise"] (by decide) rfl
    have chooser := optionOfJson?_eq subjectReads (part "subject" (by decide))
    have fallback := optionOfJson?_eq otherwiseReads (part "otherwise" (by decide))
    obtain ⟨records, same, others⟩ := Loosened.items (part "branches" (by decide))
    have choices := branchListOfJson?_eq branchesRead others
    simp [Node.ofJson?, atomOfJson?, branchesOfJson?, Json.part, Json.parts, chooser, same, choices,
      fallback]
  -- Beside the nodes there is a name and a flag, neither of which can be loosened.
  binary left op right negated leftReads rightReads value loosened := by
    obtain ⟨content, rfl, inside⟩ := loosened.content_of_tagged (by decide)
    obtain ⟨members, rfl, part⟩ :=
      inside.parts ["left", "op", "right", "negated"] (by decide) rfl
    have first := leftReads _ (part "left" (by decide))
    have named : Json.member members "op" = .string op.name :=
      (part "op" (by decide)).eq_of_scalar rfl
    have second := rightReads _ (part "right" (by decide))
    have sign : Json.member members "negated" = .bool negated :=
      (part "negated" (by decide)).eq_of_scalar rfl
    simp [Node.ofJson?, Json.part, Json.parts, first, second, named, sign, Json.name?, Json.bool?,
      op.ofName?_name]
  unary op operand operandReads value loosened := by
    obtain ⟨content, rfl, inside⟩ := loosened.content_of_tagged (by decide)
    obtain ⟨members, rfl, part⟩ := inside.parts ["op", "expr"] (by decide) rfl
    have named : Json.member members "op" = .string op.name :=
      (part "op" (by decide)).eq_of_scalar rfl
    have read := operandReads _ (part "expr" (by decide))
    simp [Node.ofJson?, Json.part, Json.parts, read, named, Json.name?, op.ofName?_name]
  parens inner innerReads value loosened := by
    obtain ⟨content, rfl, inside⟩ := loosened.content_of_tagged (by decide)
    rw [Node.ofJson?, innerReads _ inside]
    rfl
  aliasAs inner name innerReads value loosened := by
    obtain ⟨content, rfl, inside⟩ := loosened.content_of_tagged (by decide)
    obtain ⟨members, rfl, named, read⟩ := named_parts innerReads inside
    simp [Node.ofJson?, Json.part, Json.parts, read, named, Json.text?]
  aliasBare inner name innerReads value loosened := by
    obtain ⟨content, rfl, inside⟩ := loosened.content_of_tagged (by decide)
    obtain ⟨members, rfl, named, read⟩ := named_parts innerReads inside
    simp [Node.ofJson?, Json.part, Json.parts, read, named, Json.text?]
  join kind left right condition leftReads rightReads conditionReads value loosened := by
    obtain ⟨content, rfl, inside⟩ := loosened.content_of_tagged (by decide)
    obtain ⟨members, rfl, part⟩ :=
      inside.parts ["join_type", "left", "right", "on"] (by decide) rfl
    have named : Json.member members "join_type" = .string kind.name :=
      (part "join_type" (by decide)).eq_of_scalar rfl
    have first := leftReads _ (part "left" (by decide))
    have second := rightReads _ (part "right" (by decide))
    have last := optionOfJson?_eq conditionReads (part "on" (by decide))
    simp [Node.ofJson?, Json.part, Json.parts, first, second, last, named, Json.name?,
      kind.ofName?_name]
  subscript inner index innerReads indexReads value loosened := by
    obtain ⟨content, rfl, inside⟩ := loosened.content_of_tagged (by decide)
    obtain ⟨members, rfl, part⟩ := inside.parts ["left", "right"] (by decide) rfl
    have first := innerReads _ (part "left" (by decide))
    have second := indexReads _ (part "right" (by decide))
    simp [Node.ofJson?, Json.part, Json.parts, first, second]
  cast inner target innerReads targetReads value loosened := by
    obtain ⟨content, rfl, inside⟩ := loosened.content_of_tagged (by decide)
    obtain ⟨members, rfl, part⟩ := inside.parts ["value", "data_type"] (by decide) rfl
    have first := innerReads _ (part "value" (by decide))
    have second := targetReads _ (part "data_type" (by decide))
    simp [Node.ofJson?, Json.part, Json.parts, first, second]
  select statement reads value loosened := by
    obtain ⟨content, rfl, inside⟩ := loosened.content_of_tagged (by decide)
    rw [Node.ofJson?, reads content inside]
    rfl
  -- A statement is a record with eight parts, each read by the lemma for its kind.
  statement distinct projections sources filter groupBy orderBy limit offset projectionsRead
      sourcesRead filterReads groupsRead keysRead limitReads offsetReads value loosened := by
    obtain ⟨members, rfl, part⟩ := loosened.parts ["distinct", "projections", "from",
      "where_clause", "group_by", "order_by", "limit", "offset"] (by decide) rfl
    have flag : Json.member members "distinct" = .bool distinct :=
      (part "distinct" (by decide)).eq_of_scalar rfl
    have shown := listOfJson?_eq projectionsRead (part "projections" (by decide))
    have joined := listOfJson?_eq sourcesRead (part "from" (by decide))
    have filtered := optionOfJson?_eq filterReads (part "where_clause" (by decide))
    have grouped := listOfJson?_eq groupsRead (part "group_by" (by decide))
    have ordered := orderOfJson?_eq keysRead (part "order_by" (by decide))
    have limited := countOfJson?_eq limitReads (part "limit" (by decide))
    have skipped := countOfJson?_eq offsetReads (part "offset" (by decide))
    simp [Select.ofJson?, Json.part, Json.parts, flag, Json.bool?, shown, joined, filtered, grouped,
      ordered, limited, skipped]

/-- Nodes and statements are read back as they were written. The same trees are read from values in
which members of records stand in another order, absent parts are left out or members with unknown
keys are added, at any depth. -/
theorem toJson_readsBack :
    (∀ node : Node, Node.ofJson? node.toJson = some node) ∧
      (∀ statement : Select, Select.ofJson? statement.toJson = some statement) ∧
      (∀ (node : Node) (value : Json), Loosened node.toJson value →
        Node.ofJson? value = some node) ∧
      ∀ (statement : Select) (value : Json), Loosened statement.toJson value →
        Select.ofJson? value = some statement := by
  -- The form itself is one of the values that say the same.
  exact ⟨fun node => reads_trees.node node node.toJson (.same _),
    fun statement => reads_trees.whole statement statement.toJson (.same _),
    reads_trees.node, reads_trees.whole⟩

/-- A condition whose parts are in reverse order, with a member that no condition has, and a
reference whose missing table is left out. -/
theorem toJson_readsBack_reversed :
    let node : Node := .binary (.reference none "x") .and (.literal "1") true
    let value : Json := .object [("Expr", .object [("note", .array [.null]),
      ("negated", .bool true), ("right", .object [("Atom", .object [("Literal", .string "1")])]),
      ("op", .string "And"), ("left", .object [("Atom", .object [("Attribute",
        .object [("name", .string "x"), ("Atom", .null)])])])])]
    Loosened node.toJson value ∧ Node.ofJson? value = some node := by
  intro node value
  have reference : Loosened (.object [("table", .null), ("name", .string "x")])
      (.object [("name", .string "x"), ("Atom", .null)]) :=
    @Loosened.record _ [("name", .string "x")] [("name", .string "x")] [("Atom", .null)] _
      (by simp [variantTags]) (.cons _ (.refl _)) (by simp [optionalKeys]) rfl
      (.cons (.same _) .nil) (by simp) (.refl _) (by decide)
  have leaf : Loosened (.atom "Attribute" (.object [("table", .null), ("name", .string "x")]))
      (.atom "Attribute" (.object [("name", .string "x"), ("Atom", .null)])) :=
    .variant (by decide) (.variant (by decide) reference)
  let parts : List (String × Json) := [
    ("left", .atom "Attribute" (.object [("name", .string "x"), ("Atom", .null)])),
    ("op", .string "And"), ("right", .atom "Literal" (.string "1")), ("negated", .bool true)]
  let note : List (String × Json) := [("note", .array [.null])]
  have loosened : Loosened node.toJson value := by
    refine .variant (by decide) (@Loosened.record _ _ parts note _ (by simp [variantTags])
      (.refl _) (fun _ member => .inl member) rfl ?_ (by simp [note])
      (List.reverse_perm (parts ++ note)) (by decide))
    exact .cons leaf (.cons (.same _) (.cons (.same _) (.cons (.same _) .nil)))
  exact ⟨loosened, toJson_readsBack.2.2.1 node value loosened⟩

end SelectSql
