import SelectSql.Syntax.Induction

/-! Equality of trees can be decided. -/

namespace SelectSql

mutual

/-- Whether two nodes are the same, part by part. -/
def Node.same : Node → Node → Bool
  -- Nodes of different kinds are never the same.
  | .literal text, .literal text' => text == text'
  | .reference table name, .reference table' name' => table == table' && name == name'
  | .call name arguments, .call name' arguments' => name == name' && sameNodes arguments arguments'
  | .range low high, .range low' high' => low.same low' && high.same high'
  | .list items, .list items' => sameNodes items items'
  | .case subject branches otherwise, .case subject' branches' otherwise' =>
    sameOption subject subject' && sameBranches branches branches'
      && sameOption otherwise otherwise'
  | .binary left op right negated, .binary left' op' right' negated' =>
    left.same left' && op == op' && right.same right' && negated == negated'
  | .unary op operand, .unary op' operand' => op == op' && operand.same operand'
  | .parens inner, .parens inner' => inner.same inner'
  | .aliasAs inner name, .aliasAs inner' name' => inner.same inner' && name == name'
  | .aliasBare inner name, .aliasBare inner' name' => inner.same inner' && name == name'
  | .join kind left right condition, .join kind' left' right' condition' =>
    kind == kind' && left.same left' && right.same right' && sameOption condition condition'
  | .subscript value index, .subscript value' index' => value.same value' && index.same index'
  | .cast value target, .cast value' target' => value.same value' && target.same target'
  | .select statement, .select statement' => statement.same statement'
  | _, _ => false

/-- Whether two lists of nodes are the same. -/
def sameNodes : List Node → List Node → Bool
  -- Lists of different lengths run out at different times and so differ.
  | [], [] => true
  | node :: nodes, node' :: nodes' => node.same node' && sameNodes nodes nodes'
  | _, _ => false

/-- Whether two optional nodes are the same. -/
def sameOption : Option Node → Option Node → Bool
  | none, none => true
  | some node, some node' => node.same node'
  | _, _ => false

/-- Whether two optional lists of nodes are the same. -/
def sameList : Option (List Node) → Option (List Node) → Bool
  | none, none => true
  | some nodes, some nodes' => sameNodes nodes nodes'
  | _, _ => false

/-- Whether two branches are the same. -/
def Branch.same : Branch → Branch → Bool
  | ⟨condition, result⟩, ⟨condition', result'⟩ => condition.same condition' && result.same result'

/-- Whether two lists of branches are the same. -/
def sameBranches : List Branch → List Branch → Bool
  | [], [] => true
  | branch :: branches, branch' :: branches' =>
    branch.same branch' && sameBranches branches branches'
  | _, _ => false

/-- Whether two sort keys are the same. -/
def SortKey.same : SortKey → SortKey → Bool
  | ⟨key, options⟩, ⟨key', options'⟩ => key.same key' && options == options'

/-- Whether two lists of sort keys are the same. -/
def sameKeys : List SortKey → List SortKey → Bool
  | [], [] => true
  | key :: keys, key' :: keys' => key.same key' && sameKeys keys keys'
  | _, _ => false

/-- Whether two optional lists of sort keys are the same. -/
def sameOrder : Option (List SortKey) → Option (List SortKey) → Bool
  | none, none => true
  | some keys, some keys' => sameKeys keys keys'
  | _, _ => false

/-- Whether two statements are the same, clause by clause. -/
def Select.same : Select → Select → Bool
  | ⟨distinct, projections, sources, filter, groupBy, orderBy, limit, offset⟩,
    ⟨distinct', projections', sources', filter', groupBy', orderBy', limit', offset'⟩ =>
    distinct == distinct' && sameList projections projections' && sameList sources sources'
      && sameOption filter filter' && sameList groupBy groupBy' && sameOrder orderBy orderBy'
      && sameOption limit limit' && sameOption offset offset'

end

/-- A node for which comparison finds exactly equality. -/
private def Comparable (node : Node) : Prop :=
  -- The other node ranges over all, so the comparison may neither miss nor confuse one.
  ∀ other, node.same other = true ↔ node = other

/-- Comparing lists of comparable nodes finds exactly equality. -/
private theorem sameNodes_iff {first : List Node} (each : ∀ node ∈ first, Comparable node) :
    ∀ second, sameNodes first second = true ↔ first = second := by
  -- Lists agree when their heads agree and their tails do.
  induction first with
  | nil => intro second; cases second <;> simp [sameNodes]
  | cons head tail ih =>
    have headSame := each head (by simp)
    have tailSame := ih fun node member => each node (by simp [member])
    intro second
    cases second with
    | nil => simp [sameNodes]
    | cons head' tail' => simp [sameNodes, headSame head', tailSame tail']

/-- Comparing optional comparable nodes finds exactly equality. -/
private theorem sameOption_iff {first : Option Node} (each : ∀ node ∈ first, Comparable node) :
    ∀ second, sameOption first second = true ↔ first = second := by
  -- Absence equals only absence.
  cases first with
  | none => intro second; cases second <;> simp [sameOption]
  | some node =>
    intro second
    cases second with
    | none => simp [sameOption]
    | some other => simpa [sameOption] using each node rfl other

/-- Comparing optional lists of comparable nodes finds exactly equality. -/
private theorem sameList_iff {first : Option (List Node)}
    (each : ∀ nodes ∈ first, ∀ node ∈ nodes, Comparable node) :
    ∀ second, sameList first second = true ↔ first = second := by
  -- Absence equals only absence, and an empty list is not absent.
  cases first with
  | none => intro second; cases second <;> simp [sameList]
  | some nodes =>
    intro second
    cases second with
    | none => simp [sameList]
    | some other => simpa [sameList] using sameNodes_iff (each nodes rfl) other

/-- Comparing lists of branches between comparable nodes finds exactly equality. -/
private theorem sameBranches_iff {first : List Branch}
    (each : ∀ branch ∈ first, Comparable branch.condition ∧ Comparable branch.result) :
    ∀ second, sameBranches first second = true ↔ first = second := by
  -- A branch is its two nodes, both of which are compared.
  induction first with
  | nil => intro second; cases second <;> simp [sameBranches]
  | cons head tail ih =>
    obtain ⟨condition, result⟩ := head
    have headSame := each ⟨condition, result⟩ (by simp)
    have tailSame := ih fun branch member => each branch (by simp [member])
    intro second
    cases second with
    | nil => simp [sameBranches]
    | cons head' tail' =>
      obtain ⟨condition', result'⟩ := head'
      simp [sameBranches, Branch.same, headSame.1 condition', headSame.2 result', tailSame tail']

/-- Comparing lists of sort keys on comparable nodes finds exactly equality. -/
private theorem sameKeys_iff {first : List SortKey} (each : ∀ key ∈ first, Comparable key.key) :
    ∀ second, sameKeys first second = true ↔ first = second := by
  -- A sort key is its node and its modifiers, whose equality is decided already.
  induction first with
  | nil => intro second; cases second <;> simp [sameKeys]
  | cons head tail ih =>
    obtain ⟨key, options⟩ := head
    have headSame := each ⟨key, options⟩ (by simp)
    have tailSame := ih fun key member => each key (by simp [member])
    intro second
    cases second with
    | nil => simp [sameKeys]
    | cons head' tail' =>
      obtain ⟨key', options'⟩ := head'
      simp [sameKeys, SortKey.same, headSame key', tailSame tail']

/-- Comparing optional lists of sort keys on comparable nodes finds exactly equality. -/
private theorem sameOrder_iff {first : Option (List SortKey)}
    (each : ∀ keys ∈ first, ∀ key ∈ keys, Comparable (SortKey.key key)) :
    ∀ second, sameOrder first second = true ↔ first = second := by
  -- Absence equals only absence.
  cases first with
  | none => intro second; cases second <;> simp [sameOrder]
  | some keys =>
    intro second
    cases second with
    | none => simp [sameOrder]
    | some other => simpa [sameOrder] using sameKeys_iff (each keys rfl) other

/-- Comparison finds equality of every node and of every statement. -/
private theorem comparable :
    TreeInduction Comparable fun first => ∀ second, first.same second = true ↔ first = second where
  -- Against another kind of node both sides are false.
  literal text other := by cases other <;> simp [Node.same]
  reference table name other := by cases other <;> simp [Node.same]
  call name arguments each other := by cases other <;> simp [Node.same, sameNodes_iff each]
  range low high lowSame highSame other := by
    cases other <;> simp [Node.same, lowSame _, highSame _]
  list items each other := by cases other <;> simp [Node.same, sameNodes_iff each]
  case subject branches otherwise subjectSame branchesSame otherwiseSame other := by
    cases other <;> simp [Node.same, sameOption_iff subjectSame, sameBranches_iff branchesSame,
      sameOption_iff otherwiseSame, and_assoc]
  binary left op right negated leftSame rightSame other := by
    cases other <;> simp [Node.same, leftSame _, rightSame _, and_assoc]
  unary op operand operandSame other := by cases other <;> simp [Node.same, operandSame _]
  parens inner innerSame other := by cases other <;> simp [Node.same, innerSame _]
  aliasAs inner name innerSame other := by cases other <;> simp [Node.same, innerSame _]
  aliasBare inner name innerSame other := by cases other <;> simp [Node.same, innerSame _]
  join kind left right condition leftSame rightSame conditionSame other := by
    cases other <;>
      simp [Node.same, leftSame _, rightSame _, sameOption_iff conditionSame, and_assoc]
  subscript value index valueSame indexSame other := by
    cases other <;> simp [Node.same, valueSame _, indexSame _]
  cast value target valueSame targetSame other := by
    cases other <;> simp [Node.same, valueSame _, targetSame _]
  select statement statementSame other := by cases other <;> simp [Node.same, statementSame _]
  -- Statements have one shape, so the clauses are compared pair by pair.
  statement distinct projections sources filter groupBy orderBy limit offset projectionsSame
      sourcesSame filterSame groupBySame orderBySame limitSame offsetSame second := by
    cases second
    simp [Select.same, sameList_iff projectionsSame, sameList_iff sourcesSame,
      sameOption_iff filterSame, sameList_iff groupBySame, sameOrder_iff orderBySame,
      sameOption_iff limitSame, sameOption_iff offsetSame, and_assoc]

/-- Comparing two nodes finds exactly equality. -/
theorem Node.same_iff (first second : Node) : first.same second = true ↔ first = second :=
  -- Nodes are one half of the induction over trees.
  comparable.node first second

/-- Comparing two statements finds exactly equality. -/
theorem Select.same_iff (first second : Select) : first.same second = true ↔ first = second :=
  -- Statements are the other half of the induction over trees.
  comparable.whole first second

/-- Nodes are compared part by part. -/
instance : DecidableEq Node := fun first second =>
  decidable_of_iff _ (Node.same_iff first second)

/-- Statements are compared clause by clause. -/
instance : DecidableEq Select := fun first second =>
  decidable_of_iff _ (Select.same_iff first second)

end SelectSql
