import SelectSql.Proofs.Spelling.Expression

/-!
The grammar of sources and statements: which trees are such, and how they are spelled. A statement
may stand as a source without parentheses, so each clause that is absent must not follow it.
-/

namespace SelectSql

/-- The slots of a clause after its word, or of what must not follow if the clause is absent. -/
def clauseSlots (word : Keyword) : Option (List Slot) → List Slot
  | none => [.notBefore (· == .keyword word)]
  | some slots => .keyword word :: slots

/-- The slots of the list of a `GROUP` or `ORDER`. -/
def byListSlots (items : List (List Slot)) : List Slot :=
  .gap :: .keyword .by_ :: commaSlots noComma items

/-- The slots of the value of a `LIMIT` or `OFFSET`. -/
def rowCountSlots (count : Node) : List Slot :=
  .gap :: count.spelling ++ [.gap]

section Projections

/-- The slots of a projection. -/
def Node.projectionSlots : Node → List Slot
  | .aliasAs inner name =>
    inner.padded .expression ++ [.keyword .as, .gap, .token (.ofText name)]
  -- The word `AS` would go on with the projection.
  | node => node.padded .expression ++ [.notBefore (· == .keyword .as)]

/-- A projection without its name. -/
def Node.unnamed : Node → Node
  | .aliasAs inner _ => inner
  | node => node

/-- The end of projections whose last is given. -/
def Node.projectionEnd : Node → List Slot
  -- A comma goes on with the projections only if it touches the name before it.
  | .aliasAs .. => [.notTouching (· == .mark .comma)]
  | _ => noComma

/-- The slots of projections, or of what must follow if there are none. -/
def projectionSlots : Option (List Node) → List Slot
  | none => [.notBefore fun lexeme => lexeme != .keyword .from_ && lexeme != .keyword .where_]
  | some items =>
    commaSlots ((items.getLast?.map Node.projectionEnd).getD [])
      (items.map Node.projectionSlots) ++ [.gap]

/-- The trees that are projections: expressions, named or not. -/
inductive Projected : Node → Prop where
  | plain {node : Node} (formed : Formed .expression node) : Projected node
  | named {inner : Node} {name : String} (formed : Formed .expression inner)
      (named : IsName name) : Projected (.aliasAs inner name)

end Projections

section Keys

/-- Whether a modifier says where nulls go. -/
def SortOption.isPlace : SortOption → Bool
  | nullsFirst | nullsLast => true
  | _ => false

/-- Whether a lexeme would be one more modifier after some. -/
def SortOption.goesOn (options : List SortOption) (lexeme : Lexeme) : Bool :=
  -- A direction can only come first, and a place of nulls only once.
  (options.isEmpty && lexeme.direction?.isSome) ||
    (!options.any SortOption.isPlace && lexeme == .keyword .nulls)

/-- The slots of a sort key. -/
def SortKey.slots (key : SortKey) : List Slot :=
  key.key.padded .expression
    ++ key.options.flatMap (fun option => keywordSlots option.keywords ++ [.gap])
    ++ [.notBefore (SortOption.goesOn key.options)]

/-- Modifiers of a sort key: a direction at most, and then a place of nulls at most. -/
def SortOption.Ordered (options : List SortOption) : Prop :=
  ∃ direction place : Option SortOption, options = direction.toList ++ place.toList ∧
    (∀ option ∈ direction, option.isPlace = false) ∧ ∀ option ∈ place, option.isPlace = true

end Keys

section Sources

/-- Whether a lexeme would name the source before it. -/
def Lexeme.namesSource (lexeme : Lexeme) : Bool :=
  lexeme == .keyword .as || lexeme.name?.isSome

/-- The end of a member of a join, after which no name may come if it has none. -/
def Node.memberEnd : Node → List Slot
  -- A member without a name would be named by what follows.
  | .reference .. | .parens _ | .select _ => [.gap, .notBefore Lexeme.namesSource]
  | _ => []

/-- A source named after `AS` cannot be named again. -/
@[simp] theorem Node.memberEnd_aliasAs (inner : Node) (name : String) :
    (Node.aliasAs inner name).memberEnd = [] := rfl

/-- A source named by a bare word cannot be named again. -/
@[simp] theorem Node.memberEnd_aliasBare (inner : Node) (name : String) :
    (Node.aliasBare inner name).memberEnd = [] := rfl

/-- A join cannot be named. -/
@[simp] theorem Node.memberEnd_join (kind : JoinKind) (left right : Node)
    (condition : Option Node) : (Node.join kind left right condition).memberEnd = [] := rfl

/-- The slots of a source with the white space around it. -/
def padSource (node : Node) (slots : List Slot) : List Slot :=
  -- The words of a join would go on with the source.
  .gap :: slots ++ node.memberEnd ++ [.gap, .notBefore (·.joinKind?.isSome)]

mutual

/-- The spelling of a source, without what must not follow it. -/
def Node.sourceSlots : Node → List Slot
  -- A point would make this name that of the table's holder.
  | .reference none name => [.token (.ofText name), .notTouching (· == .mark .dot)]
  | .reference (some table) name => [.token (.ofText table), .mark .dot, .token (.ofText name)]
  | .parens inner => .mark .openParen :: padSource inner inner.sourceSlots ++ [.mark .closeParen]
  | .select statement => statement.slots
  | .aliasAs inner name =>
    inner.sourceSlots ++ [.gap, .keyword .as, .gap, .token (.ofText name)]
  | .aliasBare inner name => inner.sourceSlots ++ [.gap, .token (.ofText name)]
  | .join kind left right condition =>
    left.sourceSlots ++ left.memberEnd ++ .gap :: keywordSlots (kind.keywords ++ [.join])
      ++ .gap :: right.sourceSlots ++ right.memberEnd
      ++ .gap :: clauseSlots .on (condition.map (Node.padded .expression))
  -- Expressions are no sources and have spellings of their own.
  | .literal _ | .call .. | .range .. | .list _ | .case .. | .binary .. | .unary .. | .subscript ..
  | .cast .. => []

/-- The spellings of sources, each with the white space around it. -/
def paddedSources : List Node → List (List Slot)
  | [] => []
  | node :: nodes => padSource node node.sourceSlots :: paddedSources nodes

/-- The spelling of a list of sources that may be absent. -/
def sourceList? : Option (List Node) → Option (List Slot)
  | none => none
  | some nodes => some (commaSlots noComma (paddedSources nodes))

/-- The spelling of a statement. -/
def Select.slots : Select → List Slot
  | ⟨distinct, projections, sources, filter, groupBy, orderBy, limit, offset⟩ =>
    .keyword .select :: .gap ::
      (if distinct then [.keyword .distinct] else [.notBefore (· == .keyword .distinct)])
      ++ .gap :: projectionSlots projections
      ++ clauseSlots .from_ (sourceList? sources)
      ++ clauseSlots .where_ (filter.map (Node.padded .expression))
      ++ clauseSlots .group (groupBy.map fun items =>
        byListSlots (items.map (Node.padded .expression)))
      ++ clauseSlots .order (orderBy.map fun keys => byListSlots (keys.map SortKey.slots))
      ++ clauseSlots .limit (limit.map rowCountSlots)
      ++ clauseSlots .offset (offset.map rowCountSlots)

end

/-- The spelling of a source with the white space around it. -/
def Node.paddedSource (node : Node) : List Slot :=
  padSource node node.sourceSlots

/-- The parts of a source of rows. -/
inductive SourcePart where
  /-- A table, a statement or a source between parentheses. -/
  | base
  /-- A base, named or not. -/
  | member
  /-- Members under joins. -/
  | source
  deriving DecidableEq, Repr

mutual

/-- The trees that are sources of rows, or parts of such. -/
inductive SourceFormed : SourcePart → Node → Prop where
  | table {name : String} (named : IsName name) : SourceFormed .base (.reference none name)
  | qualified {table name : String} (held : IsName table) (named : IsName name) :
      SourceFormed .base (.reference (some table) name)
  | parens {inner : Node} (held : SourceFormed .source inner) : SourceFormed .base (.parens inner)
  | select {statement : Select} (formed : SelectFormed statement) :
      SourceFormed .base (.select statement)
  | ofBase {node : Node} (base : SourceFormed .base node) : SourceFormed .member node
  | aliasAs {inner : Node} {name : String} (base : SourceFormed .base inner)
      (named : IsName name) : SourceFormed .member (.aliasAs inner name)
  | aliasBare {inner : Node} {name : String} (base : SourceFormed .base inner)
      (named : IsName name) : SourceFormed .member (.aliasBare inner name)
  | ofMember {node : Node} (member : SourceFormed .member node) : SourceFormed .source node
  | join {kind : JoinKind} {left right : Node} {condition : Option Node}
      (before : SourceFormed .source left) (after : SourceFormed .member right)
      (under : ∀ node ∈ condition, Formed .expression node) :
      SourceFormed .source (.join kind left right condition)

/-- The trees that are statements. -/
inductive SelectFormed : Select → Prop where
  | clauses {statement : Select}
      (projections : ∀ items ∈ statement.projections, items ≠ [] ∧ ∀ item ∈ items, Projected item)
      (nonempty : ∀ items ∈ statement.sources, items ≠ [])
      (sources : ∀ items ∈ statement.sources, ∀ item ∈ items, SourceFormed .source item)
      (filter : ∀ node ∈ statement.filter, Formed .expression node)
      (groupBy : ∀ items ∈ statement.groupBy, items ≠ [] ∧ ∀ item ∈ items, Formed .expression item)
      (orderBy : ∀ keys ∈ statement.orderBy, keys ≠ [] ∧
        ∀ key ∈ keys, Formed .expression key.key ∧ SortOption.Ordered key.options)
      (limit : ∀ node ∈ statement.limit, Formed .atom node)
      (offset : ∀ node ∈ statement.offset, Formed .atom node) : SelectFormed statement

end

end Sources

section Shapes

variable {node : Node}

/-- No expression is a name after `AS`. -/
theorem Formed.ne_aliasAs {tier : Tier} (formed : Formed tier node) (inner : Node)
    (name : String) : node ≠ .aliasAs inner name := by
  -- A tier that holds another one has the same tree, and the trees of an atom are listed.
  induction formed with
  | ofAtom _ ih | ofIndexed _ ih | ofSuffixed _ ih | ofOperand _ ih | ofPredicate _ ih => exact ih
  | _ => simp

/-- A projection without a name is spelled as an expression that no `AS` follows. -/
theorem Formed.projectionSlots_eq (formed : Formed .expression node) :
    node.projectionSlots = node.padded .expression ++ [.notBefore (· == .keyword .as)] ∧
      node.projectionEnd = noComma := by
  -- Both definitions single out the name after `AS`, which no expression is.
  constructor
  · unfold Node.projectionSlots
    split
    · rename_i inner name
      exact absurd rfl (formed.ne_aliasAs inner name)
    · rfl
  · unfold Node.projectionEnd
    split
    · rename_i inner name
      exact absurd rfl (formed.ne_aliasAs inner name)
    · rfl

/-- A list of sources that may be absent is spelled source by source. -/
theorem sourceList?_eq (sources : Option (List Node)) :
    sourceList? sources =
      sources.map fun nodes => commaSlots noComma (nodes.map Node.paddedSource) := by
  -- The spellings of sources have a recursion of their own, which comes to a map.
  have each : ∀ nodes, paddedSources nodes = nodes.map Node.paddedSource := by
    intro nodes
    induction nodes with
    | nil => rfl
    | cons node nodes ih =>
      rw [paddedSources, ih]
      rfl
  cases sources with
  | none => rfl
  | some nodes => rw [sourceList?, each, Option.map_some]

/-- The spelling of a statement, clause by clause. -/
theorem Select.slots_eq (statement : Select) :
    statement.slots = .keyword .select :: .gap ::
      ((if statement.distinct then [.keyword .distinct]
        else [.notBefore (· == .keyword .distinct)]) ++
      .gap :: (projectionSlots statement.projections ++
      (clauseSlots .from_ (statement.sources.map fun nodes =>
        commaSlots noComma (nodes.map Node.paddedSource)) ++
      (clauseSlots .where_ (statement.filter.map (Node.padded .expression)) ++
      (clauseSlots .group (statement.groupBy.map fun items =>
        byListSlots (items.map (Node.padded .expression))) ++
      (clauseSlots .order (statement.orderBy.map fun keys =>
        byListSlots (keys.map SortKey.slots)) ++
      (clauseSlots .limit (statement.limit.map rowCountSlots) ++
      clauseSlots .offset (statement.offset.map rowCountSlots)))))))) := by
  cases statement
  simp only [Select.slots, sourceList?_eq, List.cons_append, List.append_assoc]

/-- A base is spelled with a look at what would name it. -/
theorem SourceFormed.memberEnd_eq (formed : SourceFormed .base node) :
    node.memberEnd = [.gap, .notBefore Lexeme.namesSource] := by
  cases formed <;> rfl

end Shapes

end SelectSql
