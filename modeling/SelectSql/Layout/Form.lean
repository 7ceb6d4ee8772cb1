import SelectSql.Layout.Option
import SelectSql.Layout.Piece
import SelectSql.Syntax.Tree

/-!
The printed form of trees. Each clause of a statement takes a line, a statement inside another is a
block indented by two more, and the connectives of a `WHERE` begin lines.
-/

namespace SelectSql

/-- Where a node is printed. -/
structure Place where
  /-- The indentation of the statement around the node, if there is one. -/
  enclosing : Option Nat
  /-- Whether the node is in a `WHERE` clause of that statement. -/
  inFilter : Bool
  deriving DecidableEq, Repr

namespace Place

/-- Outside any statement. -/
def top : Place :=
  -- Without a statement around it a node counts as being in no clause.
  ⟨none, false⟩

/-- The indentation of new lines. -/
def indent (place : Place) : Nat :=
  -- Outside any statement lines begin at the margin.
  place.enclosing.getD 0

/-- The indentation of a statement at this place: two more than that of the statement around it. -/
def nested (place : Place) : Nat :=
  -- The outermost statement stands at the margin.
  match place.enclosing with
  | none => 0
  | some outer => outer + 2

/-- In a clause of the statement that stands at this place. -/
def clause (place : Place) : Place :=
  -- A clause knows only its own statement, not those further out.
  ⟨some place.nested, false⟩

/-- In the `WHERE` clause of the statement that stands at this place. -/
def filter (place : Place) : Place :=
  -- The flag lasts until another statement is entered.
  ⟨some place.nested, true⟩

/-- A clause is indented as its statement. -/
@[simp] theorem indent_clause (place : Place) : place.clause.indent = place.nested := rfl

/-- The `WHERE` clause is indented as its statement. -/
@[simp] theorem indent_filter (place : Place) : place.filter.indent = place.nested := rfl

/-- What comes before an operator; connectives begin lines in a `WHERE` and only there. -/
def gapBefore (place : Place) (op : BinaryOp) : Piece :=
  -- An outer filter does not count: a nested clause clears the flag.
  if op.isConnective then .joint (if place.inFilter then some place.indent else none) else .space

end Place

/-- What separates the items of a list. -/
def commaSpace : List Piece :=
  -- The space follows the comma and never precedes it.
  [.mark .comma, .space]

/-- What separates the projections of a statement with a given indentation. -/
def ProjectionLayout.separator (layout : ProjectionLayout) (indent : Nat) : List Piece :=
  -- The first projection stands right after `SELECT ` and the others below it.
  match layout with
  | .inline => commaSpace
  | .wrap => [.mark .comma, .line (indent + "SELECT ".length)]

/-- Items in a row, a comma and a space between neighbours. -/
def commaList (items : List (List Piece)) : List Piece :=
  -- A single item has no neighbour and so no comma.
  List.intercalate commaSpace items

/-- Pieces between parentheses. -/
def inParens (pieces : List Piece) : List Piece :=
  -- Parentheses touch what they hold.
  .mark .openParen :: pieces ++ [.mark .closeParen]

/-- Keywords and what they announce, if it is there. -/
def announced (words : List Keyword) (content : Option (List Piece)) : List (List Piece) :=
  -- An absent part leaves no trace, not even its keywords.
  (content.map fun pieces => Piece.words words ++ .space :: pieces).toList

/-- A line of its own for parts with a space between neighbours, or nothing if there are none. -/
def ownLine (indent : Nat) (parts : List (List Piece)) : List Piece :=
  -- Without parts there is no line either.
  if parts.isEmpty then [] else .line indent :: List.intercalate [.space] parts

/-- The pieces of an operator before an operand. -/
def UnaryOp.pieces (op : UnaryOp) : List Piece :=
  -- A sign touches its operand and a word does not.
  if op.isWord then [.symbol op.terminal, .space] else [.symbol op.terminal]

/-- The words that introduce a join, with `JOIN` last. -/
def JoinKind.pieces (kind : JoinKind) : List Piece :=
  -- Optional words are printed only if they were written.
  Piece.words (kind.keywords ++ [.join])

mutual

/-- The printed form of a node at a place. -/
def Node.pieces (layout : ProjectionLayout) : Node → Place → List Piece
  -- Texts from the tree are printed as they are, delimiters included.
  | .literal text, _ => [.verbatim text]
  | .reference none name, _ => [.verbatim name]
  | .reference (some table) name, _ => [.verbatim table, .mark .dot, .verbatim name]
  | .call name arguments, place =>
    .verbatim name :: inParens (commaList (nodePieces layout arguments place))
  | .range low high, place =>
    -- The `BETWEEN` itself belongs to the operator that the range is under.
    low.pieces layout place ++ [.space, .keyword .and, .space] ++ high.pieces layout place
  | .list items, place => inParens (commaList (nodePieces layout items place))
  | .case subject branches otherwise, place =>
    -- Every part is followed by a space, so the `END` needs none before it.
    let parts :=
      (optionPieces layout subject place).toList ++ branchPieces layout branches place ++
        announced [.else_] (optionPieces layout otherwise place)
    .keyword .case :: .space :: parts.flatMap (· ++ [.space]) ++ [.keyword .end_]
  | .binary left op right negated, place =>
    -- Only the gap before the operator may be a line break.
    left.pieces layout place
      ++ place.gapBefore op :: (if negated then [.keyword .not, .space] else [])
      ++ Piece.spaced op.terminals ++ .space :: right.pieces layout place
  | .unary op operand, place => op.pieces ++ operand.pieces layout place
  | .parens inner, place => inParens (inner.pieces layout place)
  | .aliasAs inner name, place =>
    inner.pieces layout place ++ [.space, .keyword .as, .space, .verbatim name]
  | .aliasBare inner name, place => inner.pieces layout place ++ [.space, .verbatim name]
  | .join kind left right condition, place =>
    -- A join begins a line, and so does its condition.
    left.pieces layout place
      ++ .line place.indent :: kind.pieces ++ .space :: right.pieces layout place
      ++ ownLine place.indent (announced [.on] (optionPieces layout condition place))
  | .subscript value index, place =>
    -- Brackets and conversion signs touch what stands on both sides.
    value.pieces layout place ++ .mark .openBracket :: index.pieces layout place
      ++ [.mark .closeBracket]
  | .cast value target, place =>
    value.pieces layout place ++ .mark .doubleColon :: target.pieces layout place
  | .select statement, place => statement.pieces layout place

/-- The printed forms of nodes. -/
def nodePieces (layout : ProjectionLayout) : List Node → Place → List (List Piece)
  -- All items stand at the place of the list.
  | [], _ => []
  | node :: nodes, place => node.pieces layout place :: nodePieces layout nodes place

/-- The printed form of a node that may be absent. -/
def optionPieces (layout : ProjectionLayout) : Option Node → Place → Option (List Piece)
  -- Absence is kept, so that the words around the part can be left out with it.
  | none, _ => none
  | some node, place => some (node.pieces layout place)

/-- The printed forms of nodes that may be absent. -/
def listPieces (layout : ProjectionLayout) : Option (List Node) → Place → Option (List (List Piece))
  -- A list that is there but empty still has its words around it.
  | none, _ => none
  | some nodes, place => some (nodePieces layout nodes place)

/-- The printed form of a branch. -/
def Branch.pieces (layout : ProjectionLayout) : Branch → Place → List Piece
  -- A branch stays on one line unless something in it breaks.
  | ⟨condition, result⟩, place =>
    .keyword .when :: .space :: condition.pieces layout place
      ++ [.space, .keyword .then_, .space] ++ result.pieces layout place

/-- The printed forms of branches. -/
def branchPieces (layout : ProjectionLayout) : List Branch → Place → List (List Piece)
  | [], _ => []
  | branch :: branches, place => branch.pieces layout place :: branchPieces layout branches place

/-- The printed form of a sort key. -/
def SortKey.pieces (layout : ProjectionLayout) : SortKey → Place → List Piece
  -- Modifiers are printed in the order in which the tree holds them.
  | ⟨key, options⟩, place =>
    key.pieces layout place ++ options.flatMap fun option => .space :: Piece.words option.keywords

/-- The printed forms of sort keys. -/
def keyPieces (layout : ProjectionLayout) : List SortKey → Place → List (List Piece)
  | [], _ => []
  | key :: keys, place => key.pieces layout place :: keyPieces layout keys place

/-- The printed forms of sort keys that may be absent. -/
def orderPieces (layout : ProjectionLayout) :
    Option (List SortKey) → Place → Option (List (List Piece))
  -- Absence is kept, as it is for lists of nodes.
  | none, _ => none
  | some keys, place => some (keyPieces layout keys place)

/-- The printed form of a statement: a line for each clause, the last two sharing one. -/
def Select.pieces (layout : ProjectionLayout) : Select → Place → List Piece
  | ⟨distinct, projections, sources, filter, groupBy, orderBy, limit, offset⟩, place =>
    -- A nested statement begins a line, and every statement ends with one.
    let indent := place.nested
    let separator := layout.separator indent
    let clause := fun (words : List Keyword) (content : Option (List Piece)) =>
      ownLine indent (announced words content)
    (if place.enclosing.isSome then [.line indent] else [])
      ++ .keyword .select :: (if distinct then [.space, .keyword .distinct] else [])
      ++ ((listPieces layout projections place.clause).map fun items =>
        .space :: List.intercalate separator items).getD []
      ++ clause [.from_] ((listPieces layout sources place.clause).map commaList)
      ++ clause [.where_] (optionPieces layout filter place.filter)
      ++ clause [.group, .by_] ((listPieces layout groupBy place.clause).map commaList)
      ++ clause [.order, .by_] ((orderPieces layout orderBy place.clause).map commaList)
      ++ ownLine indent (announced [.limit] (optionPieces layout limit place.clause)
        ++ announced [.offset] (optionPieces layout offset place.clause))
      ++ [.line place.indent]

end

end SelectSql
