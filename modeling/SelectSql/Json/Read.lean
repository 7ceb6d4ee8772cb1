import SelectSql.Json.Write

/-!
Trees read from their JSON form. The order of members does not matter, members with other keys are
passed over, and a missing part is read as if it were `null`. A record may also be an array of all
its parts, in the order in which they are written; only leaves with named parts may not.
-/

namespace SelectSql

/-- A member is no larger than the members it is found among. -/
theorem Json.sizeOf_member_le (members : List (String × Json)) (key : String) :
    sizeOf (member members key) ≤ sizeOf members := by
  -- A missing member counts as `null`, which is as small as an empty list.
  induction members with
  | nil => simp [member]
  | cons head tail ih =>
    -- The wanted member is the first one or one of the others.
    obtain ⟨name, value⟩ := head
    simp only [member, List.lookup_cons] at ih ⊢
    split <;> simp <;> omega

/-- A member found among values put under keys is no larger than these values. -/
theorem Json.sizeOf_member_zip_le (keys : List String) (items : List Json) (key : String) :
    sizeOf (member (keys.zip items) key) ≤ sizeOf items := by
  -- The keys are set aside: each value is compared with the values alone.
  induction keys generalizing items with
  | nil =>
    have positive : 1 ≤ sizeOf items := by
      cases items with
      | nil => decide
      | cons item items =>
        rw [List.cons.sizeOf_spec]
        omega
    simpa [member] using positive
  | cons name names ih =>
    cases items with
    | nil => simp [member]
    | cons item items =>
      have others := ih items
      simp only [member, List.zip_cons_cons, List.lookup_cons] at others ⊢
      split <;> simp <;> omega

/-- A part is no larger than its record. -/
theorem Json.sizeOf_part_le (record : Json) (keys : List String) (key : String) :
    sizeOf (record.part keys key) ≤ sizeOf record := by
  -- A record that is no object and no array has `null` for every part.
  unfold part
  cases record with
  | object members =>
    have inside := sizeOf_member_le members key
    simp only [parts, object.sizeOf_spec]
    omega
  | array items =>
    have inside := sizeOf_member_zip_le keys items key
    simp only [parts, array.sizeOf_spec]
    split
    · omega
    · simp [member]
  | _ => simp [parts, member] <;> omega

/-- The names in an array. -/
def Json.names? : Json → Option (List String)
  -- One item that is no name spoils the whole array.
  | array items => items.mapM name?
  | _ => none

mutual

/-- The node that a JSON value stands for. -/
def Node.ofJson? : Json → Option Node
  -- A node has exactly one member, so an object with none or with two is no node.
  | .object [("Select", content)] => (Select.ofJson? content).map .select
  | .object [("Expr", record)] => do
    let keys := ["left", "op", "right", "negated"]
    let left ← Node.ofJson? (record.part keys "left")
    let op ← (record.part keys "op").name?.bind BinaryOp.ofName?
    let right ← Node.ofJson? (record.part keys "right")
    let negated ← (record.part keys "negated").bool?
    return .binary left op right negated
  | .object [("Unary", record)] => do
    let keys := ["op", "expr"]
    let op ← (record.part keys "op").name?.bind UnaryOp.ofName?
    let operand ← Node.ofJson? (record.part keys "expr")
    return .unary op operand
  | .object [("Atom", .object [(tag, content)])] => atomOfJson? tag content
  | .object [("Parens", content)] => (Node.ofJson? content).map .parens
  | .object [("As", record)] => do
    let keys := ["name", "expr"]
    let name ← (record.part keys "name").text?
    let inner ← Node.ofJson? (record.part keys "expr")
    return .aliasAs inner name
  | .object [("Alias", record)] => do
    let keys := ["name", "expr"]
    let name ← (record.part keys "name").text?
    let inner ← Node.ofJson? (record.part keys "expr")
    return .aliasBare inner name
  | .object [("Join", record)] => do
    let keys := ["join_type", "left", "right", "on"]
    let kind ← (record.part keys "join_type").name?.bind JoinKind.ofName?
    let left ← Node.ofJson? (record.part keys "left")
    let right ← Node.ofJson? (record.part keys "right")
    let condition ← optionOfJson? (record.part keys "on")
    return .join kind left right condition
  | .object [("Subscript", record)] => do
    let keys := ["left", "right"]
    let value ← Node.ofJson? (record.part keys "left")
    let index ← Node.ofJson? (record.part keys "right")
    return .subscript value index
  | .object [("TypeCast", record)] => do
    let keys := ["value", "data_type"]
    let value ← Node.ofJson? (record.part keys "value")
    let target ← Node.ofJson? (record.part keys "data_type")
    return .cast value target
  | _ => none
termination_by value => (sizeOf value, 0)
decreasing_by
  all_goals simp [Prod.lex_def]
  all_goals grind [Json.sizeOf_member_le, Json.sizeOf_part_le]

/-- The leaf that a tag and its content stand for. -/
def atomOfJson? (tag : String) (content : Json) : Option Node :=
  -- The tag decides which content is wanted, and other content is refused.
  match tag, content with
  | "Literal", .string text => some (.literal text)
  | "Attribute", .object members => do
    let table ← (Json.member members "table").nullable? Json.text?
    let name ← (Json.member members "name").text?
    return .reference table name
  | "Function", .object members => do
    let name ← (Json.member members "name").text?
    let arguments ← arrayOfJson? (.member members "args")
    return .call name arguments
  | "Range", .object members => do
    let low ← Node.ofJson? (.member members "low")
    let high ← Node.ofJson? (.member members "high")
    return .range low high
  | "List", items => (arrayOfJson? items).map .list
  | "Case", record => do
    let keys := ["subject", "branches", "otherwise"]
    let subject ← optionOfJson? (record.part keys "subject")
    let branches ← branchesOfJson? (record.part keys "branches")
    let otherwise ← optionOfJson? (record.part keys "otherwise")
    return .case subject branches otherwise
  | _, _ => none
termination_by (sizeOf content, 2)
decreasing_by
  all_goals simp [Prod.lex_def]
  all_goals grind [Json.sizeOf_member_le, Json.sizeOf_part_le]

/-- The nodes that JSON values stand for. -/
def nodesOfJson? : List Json → Option (List Node)
  -- One value that is no node spoils the list.
  | [] => some []
  | item :: items => do
    let node ← Node.ofJson? item
    let nodes ← nodesOfJson? items
    return node :: nodes
termination_by items => (sizeOf items, 0)

/-- The nodes that a JSON array stands for. -/
def arrayOfJson? : Json → Option (List Node)
  -- A single node is not taken for a list of one.
  | .array items => nodesOfJson? items
  | _ => none
termination_by value => (sizeOf value, 0)

/-- The node, if any, that a JSON value stands for. -/
def optionOfJson? : Json → Option (Option Node)
  -- A value that is neither `null` nor a node is refused and not passed over.
  | .null => some none
  | value => (Node.ofJson? value).map some
termination_by value => (sizeOf value, 1)

/-- The list, if any, that a JSON value stands for. -/
def listOfJson? : Json → Option (Option (List Node))
  -- A value that is neither `null` nor a list is refused and not passed over.
  | .null => some none
  | value => (arrayOfJson? value).map some
termination_by value => (sizeOf value, 1)

/-- The branches that JSON values stand for. -/
def branchListOfJson? : List Json → Option (List Branch)
  -- Both members of a branch are required, since `null` is no node.
  | [] => some []
  | record :: records => do
    let keys := ["condition", "result"]
    let condition ← Node.ofJson? (record.part keys "condition")
    let result ← Node.ofJson? (record.part keys "result")
    let branches ← branchListOfJson? records
    return ⟨condition, result⟩ :: branches
termination_by items => (sizeOf items, 0)
decreasing_by
  all_goals simp [Prod.lex_def]
  all_goals grind [Json.sizeOf_member_le, Json.sizeOf_part_le]

/-- The branches that a JSON array stands for. -/
def branchesOfJson? : Json → Option (List Branch)
  | .array items => branchListOfJson? items
  | _ => none
termination_by value => (sizeOf value, 0)

/-- The sort keys that JSON values stand for. -/
def keysOfJson? : List Json → Option (List SortKey)
  -- Both members of a key are required, but its modifiers may be none.
  | [] => some []
  | record :: records => do
    let keys := ["key", "options"]
    let key ← Node.ofJson? (record.part keys "key")
    let options ← (record.part keys "options").names?.bind (·.mapM SortOption.ofName?)
    let others ← keysOfJson? records
    return ⟨key, options⟩ :: others
termination_by items => (sizeOf items, 0)
decreasing_by
  all_goals simp [Prod.lex_def]
  all_goals grind [Json.sizeOf_member_le, Json.sizeOf_part_le]

/-- The ordering, if any, that a JSON value stands for. -/
def orderOfJson? : Json → Option (Option (List SortKey))
  | .null => some none
  | .array items => (keysOfJson? items).map some
  | _ => none
termination_by value => (sizeOf value, 0)

/-- The row count, if any, that a JSON value stands for. -/
def countOfJson? : Json → Option (Option Node)
  -- An object without the member is refused, since `null` is no node.
  | .null => some none
  | record => (Node.ofJson? (record.part ["expr"] "expr")).map some
termination_by value => (sizeOf value, 1)
decreasing_by
  all_goals simp [Prod.lex_def]
  all_goals grind [Json.sizeOf_part_le]

/-- The statement that a JSON value stands for. -/
def Select.ofJson? (record : Json) : Option Select := do
  -- Only the first member is required, since all the others may be `null`.
  let keys := ["distinct", "projections", "from", "where_clause", "group_by", "order_by", "limit",
    "offset"]
  let distinct ← (record.part keys "distinct").bool?
  let projections ← listOfJson? (record.part keys "projections")
  let sources ← listOfJson? (record.part keys "from")
  let filter ← optionOfJson? (record.part keys "where_clause")
  let groupBy ← listOfJson? (record.part keys "group_by")
  let orderBy ← orderOfJson? (record.part keys "order_by")
  let limit ← countOfJson? (record.part keys "limit")
  let offset ← countOfJson? (record.part keys "offset")
  return { distinct, projections, sources, filter, groupBy, orderBy, limit, offset }
termination_by (sizeOf record, 3)
decreasing_by
  all_goals simp [Prod.lex_def]
  all_goals grind [Json.sizeOf_part_le]

end

end SelectSql
