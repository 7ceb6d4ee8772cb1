import SelectSql.Syntax.Operator
import SelectSql.Syntax.Join
import SelectSql.Syntax.Order

/-! Syntax trees of statements, sources and expressions. -/

namespace SelectSql

mutual

/-- A piece of a statement: an expression, a source of rows, or an item with a name of its own. -/
inductive Node where
  /-- A number, a string, `NULL` or `*`, as written. -/
  | literal (text : String)
  /-- A name, with the name of its table before a dot if one is written. -/
  | reference (table : Option String) (name : String)
  /-- A function applied to arguments. -/
  | call (name : String) (arguments : List Node)
  /-- The two bounds of a `BETWEEN`. -/
  | range (low high : Node)
  /-- The values of an `IN`, between parentheses. -/
  | list (items : List Node)
  /-- A choice among branches. -/
  | case (subject : Option Node) (branches : List Branch) (otherwise : Option Node)
  /-- An operator between two operands, with `NOT` before the operator if it is negated. -/
  | binary (left : Node) (op : BinaryOp) (right : Node) (negated : Bool)
  /-- An operator before its operand. -/
  | unary (op : UnaryOp) (operand : Node)
  /-- Something between parentheses. -/
  | parens (inner : Node)
  /-- Something named after `AS`. -/
  | aliasAs (inner : Node) (name : String)
  /-- Something named by a bare word after it. -/
  | aliasBare (inner : Node) (name : String)
  /-- Two sources joined, under a condition if one is written. -/
  | join (kind : JoinKind) (left right : Node) (condition : Option Node)
  /-- An element picked by its index. -/
  | subscript (value index : Node)
  /-- A value converted to a type. -/
  | cast (value target : Node)
  /-- A statement inside another. -/
  | select (statement : Select)

/-- One branch of a choice. -/
structure Branch where
  /-- The condition, or the value compared with the subject. -/
  condition : Node
  /-- The value of the choice if the branch is taken. -/
  result : Node

/-- One key of an ordering. -/
structure SortKey where
  /-- The expression to order by. -/
  key : Node
  /-- The modifiers, in the order in which they are written. -/
  options : List SortOption

/-- A statement; a clause that is not written is absent. -/
structure Select where
  /-- Whether repeated rows are dropped. -/
  distinct : Bool
  /-- The items between `SELECT` and the first clause. -/
  projections : Option (List Node)
  /-- The sources of `FROM`. -/
  sources : Option (List Node)
  /-- The condition of `WHERE`. -/
  filter : Option Node
  /-- The expressions of `GROUP BY`. -/
  groupBy : Option (List Node)
  /-- The keys of `ORDER BY`. -/
  orderBy : Option (List SortKey)
  /-- The value of `LIMIT`. -/
  limit : Option Node
  /-- The value of `OFFSET`. -/
  offset : Option Node

end

namespace Node

/-- Whether the node is a leaf of the operator grammar. -/
def isAtom : Node → Bool
  -- Parentheses, names and suffixes wrap a node and so are no leaves.
  | literal .. | reference .. | call .. | range .. | list .. | case .. => true
  | _ => false

/-- Whether the node is an operator between two operands. -/
def isBinary : Node → Bool
  -- Negation is part of the operation and does not matter here.
  | binary .. => true
  | _ => false

/-- Whether the node joins two sources. -/
def isJoin : Node → Bool
  -- A single table is a source without being a join.
  | join .. => true
  | _ => false

end Node

end SelectSql
