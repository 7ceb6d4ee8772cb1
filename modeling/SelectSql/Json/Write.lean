import SelectSql.Json.Value
import SelectSql.Syntax.Tree

/-!
The JSON form of trees. A node is an object with one member, whose key says what the node is; every
part is written, with `null` for those that are absent.
-/

namespace SelectSql

/-- A node of a given kind. -/
def Json.tagged (tag : String) (content : Json) : Json :=
  -- One member is enough to tell the kind and to hold the content.
  .object [(tag, content)]

/-- A leaf of a given kind, which carries a tag of its own below that of leaves. -/
def Json.atom (tag : String) (content : Json) : Json :=
  -- Leaves are one kind of node, and each is one kind of leaf.
  .tagged "Atom" (.tagged tag content)

/-- A text that may be absent. -/
def Json.ofText? : Option String → Json
  -- Absence is written as `null` and not by leaving the member out.
  | none => .null
  | some text => .string text

mutual

/-- The JSON form of a node. -/
def Node.toJson : Node → Json
  -- Keys of parts are written in one fixed order.
  | .literal text => .atom "Literal" (.string text)
  | .reference table name =>
    .atom "Attribute" (.object [("table", .ofText? table), ("name", .string name)])
  | .call name arguments =>
    .atom "Function" (.object [("name", .string name), ("args", .array (nodesToJson arguments))])
  | .range low high => .atom "Range" (.object [("low", low.toJson), ("high", high.toJson)])
  | .list items => .atom "List" (.array (nodesToJson items))
  | .case subject branches otherwise =>
    .atom "Case" (.object [("subject", optionToJson subject),
      ("branches", .array (branchesToJson branches)), ("otherwise", optionToJson otherwise)])
  | .binary left op right negated =>
    .tagged "Expr" (.object [("left", left.toJson), ("op", .string op.name),
      ("right", right.toJson), ("negated", .bool negated)])
  | .unary op operand =>
    .tagged "Unary" (.object [("op", .string op.name), ("expr", operand.toJson)])
  | .parens inner => .tagged "Parens" inner.toJson
  | .aliasAs inner name => .tagged "As" (.object [("name", .string name), ("expr", inner.toJson)])
  | .aliasBare inner name =>
    .tagged "Alias" (.object [("name", .string name), ("expr", inner.toJson)])
  | .join kind left right condition =>
    .tagged "Join" (.object [("join_type", .string kind.name), ("left", left.toJson),
      ("right", right.toJson), ("on", optionToJson condition)])
  | .subscript value index =>
    .tagged "Subscript" (.object [("left", value.toJson), ("right", index.toJson)])
  | .cast value target =>
    .tagged "TypeCast" (.object [("value", value.toJson), ("data_type", target.toJson)])
  | .select statement => .tagged "Select" statement.toJson

/-- The JSON forms of nodes. -/
def nodesToJson : List Node → List Json
  | [] => []
  | node :: nodes => node.toJson :: nodesToJson nodes

/-- The JSON form of a node that may be absent. -/
def optionToJson : Option Node → Json
  -- No node is written as `null`, so absence can be told from presence.
  | none => .null
  | some node => node.toJson

/-- The JSON form of a row count that may be absent; it stands in an object of its own. -/
def countToJson : Option Node → Json
  -- The object has the count as its only member.
  | none => .null
  | some count => .object [("expr", count.toJson)]

/-- The JSON form of a list of nodes that may be absent. -/
def listToJson : Option (List Node) → Json
  -- An empty list is an empty array and so is told from an absent one.
  | none => .null
  | some nodes => .array (nodesToJson nodes)

/-- The JSON form of a branch. -/
def Branch.toJson : Branch → Json
  -- A branch has one shape only and needs no tag.
  | ⟨condition, result⟩ => .object [("condition", condition.toJson), ("result", result.toJson)]

/-- The JSON forms of branches. -/
def branchesToJson : List Branch → List Json
  | [] => []
  | branch :: branches => branch.toJson :: branchesToJson branches

/-- The JSON form of a sort key. -/
def SortKey.toJson : SortKey → Json
  -- A sort key has one shape only and needs no tag.
  | ⟨key, options⟩ =>
    .object [("key", key.toJson),
      ("options", .array (options.map fun option => .string option.name))]

/-- The JSON forms of sort keys. -/
def keysToJson : List SortKey → List Json
  | [] => []
  | key :: keys => key.toJson :: keysToJson keys

/-- The JSON form of a list of sort keys that may be absent. -/
def orderToJson : Option (List SortKey) → Json
  -- An empty ordering is an empty array and so is told from an absent one.
  | none => .null
  | some keys => .array (keysToJson keys)

/-- The JSON form of a statement. -/
def Select.toJson : Select → Json
  -- Absent clauses are written as well, so every statement has the same members.
  | ⟨distinct, projections, sources, filter, groupBy, orderBy, limit, offset⟩ =>
    .object [("distinct", .bool distinct), ("projections", listToJson projections),
      ("from", listToJson sources), ("where_clause", optionToJson filter),
      ("group_by", listToJson groupBy), ("order_by", orderToJson orderBy),
      ("limit", countToJson limit), ("offset", countToJson offset)]

end

end SelectSql
