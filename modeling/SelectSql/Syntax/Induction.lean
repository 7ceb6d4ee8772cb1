import SelectSql.Syntax.Tree

/-! Induction over trees, with the parts of lists and of absent clauses reached by membership. -/

namespace SelectSql

/-- The steps of an induction: what holds of the parts of a tree holds of the tree. -/
structure TreeInduction (P : Node → Prop) (Q : Select → Prop) : Prop where
  /-- Literals have no parts. -/
  literal : ∀ text, P (.literal text)
  /-- References have no parts. -/
  reference : ∀ table name, P (.reference table name)
  /-- Calls, from their arguments. -/
  call : ∀ name arguments, (∀ node ∈ arguments, P node) → P (.call name arguments)
  /-- Ranges, from their bounds. -/
  range : ∀ low high, P low → P high → P (.range low high)
  /-- Lists, from their items. -/
  list : ∀ items, (∀ node ∈ items, P node) → P (.list items)
  /-- Choices, from all that they hold. -/
  case : ∀ subject branches otherwise, (∀ node ∈ subject, P node) →
    (∀ branch ∈ branches, P branch.condition ∧ P branch.result) → (∀ node ∈ otherwise, P node) →
    P (.case subject branches otherwise)
  /-- Binary operations, from their operands. -/
  binary : ∀ left op right negated, P left → P right → P (.binary left op right negated)
  /-- Unary operations, from their operand. -/
  unary : ∀ op operand, P operand → P (.unary op operand)
  /-- Parentheses, from what they hold. -/
  parens : ∀ inner, P inner → P (.parens inner)
  /-- Names after `AS`, from what they name. -/
  aliasAs : ∀ inner name, P inner → P (.aliasAs inner name)
  /-- Bare names, from what they name. -/
  aliasBare : ∀ inner name, P inner → P (.aliasBare inner name)
  /-- Joins, from their members and condition. -/
  join : ∀ kind left right condition, P left → P right → (∀ node ∈ condition, P node) →
    P (.join kind left right condition)
  /-- Subscripts, from value and index. -/
  subscript : ∀ value index, P value → P index → P (.subscript value index)
  /-- Conversions, from value and type. -/
  cast : ∀ value target, P value → P target → P (.cast value target)
  /-- Statements inside others. -/
  select : ∀ statement, Q statement → P (.select statement)
  /-- Statements, from the nodes of their clauses. -/
  statement : ∀ distinct projections sources filter groupBy orderBy limit offset,
    (∀ nodes ∈ projections, ∀ node ∈ nodes, P node) → (∀ nodes ∈ sources, ∀ node ∈ nodes, P node) →
    (∀ node ∈ filter, P node) → (∀ nodes ∈ groupBy, ∀ node ∈ nodes, P node) →
    (∀ keys ∈ orderBy, ∀ key ∈ keys, P (SortKey.key key)) → (∀ node ∈ limit, P node) →
    (∀ node ∈ offset, P node) →
    Q ⟨distinct, projections, sources, filter, groupBy, orderBy, limit, offset⟩

variable {P : Node → Prop} {Q : Select → Prop}

namespace TreeInduction

mutual

/-- Every node falls under an induction over trees. -/
theorem node (steps : TreeInduction P Q) : ∀ node, P node
  -- Each case hands the parts of the node to the step for its kind.
  | .literal text => steps.literal text
  | .reference table name => steps.reference table name
  | .call name arguments => steps.call name arguments (steps.nodes arguments)
  | .range low high => steps.range low high (steps.node low) (steps.node high)
  | .list items => steps.list items (steps.nodes items)
  | .case subject branches otherwise =>
    steps.case subject branches otherwise (steps.option subject) (steps.branches branches)
      (steps.option otherwise)
  | .binary left op right negated =>
    steps.binary left op right negated (steps.node left) (steps.node right)
  | .unary op operand => steps.unary op operand (steps.node operand)
  | .parens inner => steps.parens inner (steps.node inner)
  | .aliasAs inner name => steps.aliasAs inner name (steps.node inner)
  | .aliasBare inner name => steps.aliasBare inner name (steps.node inner)
  | .join kind left right condition =>
    steps.join kind left right condition (steps.node left) (steps.node right)
      (steps.option condition)
  | .subscript value index => steps.subscript value index (steps.node value) (steps.node index)
  | .cast value target => steps.cast value target (steps.node value) (steps.node target)
  | .select statement => steps.select statement (steps.whole statement)

/-- Every node of a list falls under the induction. -/
theorem nodes (steps : TreeInduction P Q) : ∀ nodes : List Node, ∀ node ∈ nodes, P node
  -- A member of the list is its head or a member of its tail.
  | [] => nofun
  | first :: rest => List.forall_mem_cons.2 ⟨steps.node first, steps.nodes rest⟩

/-- A node that may be absent falls under the induction. -/
theorem option (steps : TreeInduction P Q) : ∀ option : Option Node, ∀ node ∈ option, P node
  -- The only member of an option is what it holds.
  | none => nofun
  | some node => fun _ member => Option.some.inj member ▸ steps.node node

/-- Every node of a list that may be absent falls under the induction. -/
theorem list? (steps : TreeInduction P Q) :
    ∀ list : Option (List Node), ∀ nodes ∈ list, ∀ node ∈ nodes, P node
  | none => nofun
  | some nodes => fun _ member => Option.some.inj member ▸ steps.nodes nodes

/-- Both nodes of a branch fall under the induction. -/
theorem branch (steps : TreeInduction P Q) :
    ∀ branch : Branch, P branch.condition ∧ P branch.result
  | ⟨condition, result⟩ => ⟨steps.node condition, steps.node result⟩

/-- Both nodes of every branch of a list fall under the induction. -/
theorem branches (steps : TreeInduction P Q) :
    ∀ branches : List Branch, ∀ branch ∈ branches, P branch.condition ∧ P branch.result
  | [] => nofun
  | first :: rest => List.forall_mem_cons.2 ⟨steps.branch first, steps.branches rest⟩

/-- The expression of a sort key falls under the induction. -/
theorem sortKey (steps : TreeInduction P Q) : ∀ sortKey : SortKey, P sortKey.key
  | ⟨key, _⟩ => steps.node key

/-- The expression of every sort key of a list falls under the induction. -/
theorem sortKeys (steps : TreeInduction P Q) : ∀ keys : List SortKey, ∀ key ∈ keys, P key.key
  | [] => nofun
  | first :: rest => List.forall_mem_cons.2 ⟨steps.sortKey first, steps.sortKeys rest⟩

/-- The expression of every sort key of a list that may be absent falls under the induction. -/
theorem order? (steps : TreeInduction P Q) :
    ∀ order : Option (List SortKey), ∀ keys ∈ order, ∀ key ∈ keys, P (SortKey.key key)
  | none => nofun
  | some keys => fun _ member => Option.some.inj member ▸ steps.sortKeys keys

/-- Every statement falls under the induction. -/
theorem whole (steps : TreeInduction P Q) : ∀ statement, Q statement
  -- The clauses are reached one by one, each in the form that the step expects.
  | ⟨distinct, projections, sources, filter, groupBy, orderBy, limit, offset⟩ =>
    steps.statement distinct projections sources filter groupBy orderBy limit offset
      (steps.list? projections) (steps.list? sources) (steps.option filter) (steps.list? groupBy)
      (steps.order? orderBy) (steps.option limit) (steps.option offset)

end

end TreeInduction

end SelectSql
