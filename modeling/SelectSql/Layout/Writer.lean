import SelectSql.Layout.Form

/-! Writing trees onto a page, which keeps the place of the node at hand and the text so far. -/

namespace SelectSql

/-- A page being written. -/
structure Page where
  /-- Where the next node is printed. -/
  place : Place
  /-- The text written so far. -/
  text : String
  deriving DecidableEq, Repr

/-- A step of writing. -/
abbrev Writing := StateM Page

namespace Writing

/-- Writes a piece. -/
def put (piece : Piece) : Writing Unit :=
  -- Text is only ever added at the end.
  modify fun page => { page with text := page.text ++ piece.text }

/-- Writes pieces in a row. -/
def putAll (pieces : List Piece) : Writing Unit :=
  -- The order of pieces is the order of their text.
  forM pieces put

/-- Goes on at another place. -/
def moveTo (place : Place) : Writing Unit :=
  -- The text so far stays as it is.
  modify fun page => { page with place }

/-- The place of the next node. -/
def here : Writing Place := do
  -- Asking changes nothing.
  return (← get).place

/-- Writes the words that announce a clause on a line of its own. -/
def beginClause (words : List Keyword) : Writing Unit := do
  -- The line is indented as the statement that the clause belongs to.
  put (.line (← here).indent)
  putAll (Piece.words words)
  put .space

end Writing

open Writing

mutual

/-- Writes a node. -/
def Node.write (layout : ProjectionLayout) : Node → Writing Unit
  -- Parts are written in the order in which they stand in the text.
  | .literal text => put (.verbatim text)
  | .reference none name => put (.verbatim name)
  | .reference (some table) name => putAll [.verbatim table, .mark .dot, .verbatim name]
  | .call name arguments => do
    putAll [.verbatim name, .mark .openParen]
    writeNodes layout commaSpace arguments
    put (.mark .closeParen)
  | .range low high => do
    low.write layout
    putAll [.space, .keyword .and, .space]
    high.write layout
  | .list items => do
    put (.mark .openParen)
    writeNodes layout commaSpace items
    put (.mark .closeParen)
  | .case subject branches otherwise => do
    -- Each part brings the space after it, so the `END` needs none before it.
    putAll [.keyword .case, .space]
    writePart layout [] subject
    writeBranches layout branches
    writePart layout [.keyword .else_, .space] otherwise
    put (.keyword .end_)
  | .binary left op right negated => do
    left.write layout
    -- The place is asked for after the left side, which has restored it.
    put ((← here).gapBefore op)
    putAll (if negated then [.keyword .not, .space] else [])
    putAll (Piece.spaced op.terminals)
    put .space
    right.write layout
  | .unary op operand => do
    putAll op.pieces
    operand.write layout
  | .parens inner => do
    put (.mark .openParen)
    inner.write layout
    put (.mark .closeParen)
  | .aliasAs inner name => do
    inner.write layout
    putAll [.space, .keyword .as, .space, .verbatim name]
  | .aliasBare inner name => do
    inner.write layout
    putAll [.space, .verbatim name]
  | .join kind left right condition => do
    left.write layout
    put (.line (← here).indent)
    putAll kind.pieces
    put .space
    right.write layout
    writeClause layout [.on] condition
  | .subscript value index => do
    value.write layout
    put (.mark .openBracket)
    index.write layout
    put (.mark .closeBracket)
  | .cast value target => do
    value.write layout
    put (.mark .doubleColon)
    target.write layout
  | .select statement => statement.write layout

/-- Writes nodes with a separator between neighbours. -/
def writeNodes (layout : ProjectionLayout) (separator : List Piece) : List Node → Writing Unit
  -- A separator is due only if another node follows.
  | [] => pure ()
  | [node] => node.write layout
  | node :: next :: nodes => do
    node.write layout
    putAll separator
    writeNodes layout separator (next :: nodes)

/-- Writes a part of a choice, if it is there, after what introduces it and before a space. -/
def writePart (layout : ProjectionLayout) (introduction : List Piece) : Option Node → Writing Unit
  -- An absent part leaves no trace.
  | none => pure ()
  | some node => do
    putAll introduction
    node.write layout
    put .space

/-- Writes branches, each before a space. -/
def writeBranches (layout : ProjectionLayout) : List Branch → Writing Unit
  | [] => pure ()
  | branch :: branches => do
    branch.write layout
    put .space
    writeBranches layout branches

/-- Writes a branch. -/
def Branch.write (layout : ProjectionLayout) : Branch → Writing Unit
  | ⟨condition, result⟩ => do
    putAll [.keyword .when, .space]
    condition.write layout
    putAll [.space, .keyword .then_, .space]
    result.write layout

/-- Writes a clause that holds a node, if it is there. -/
def writeClause (layout : ProjectionLayout) (words : List Keyword) : Option Node → Writing Unit
  -- An absent clause leaves no line behind.
  | none => pure ()
  | some node => do
    beginClause words
    node.write layout

/-- Writes a clause that holds nodes, if it is there. -/
def writeListClause (layout : ProjectionLayout) (words : List Keyword) :
    Option (List Node) → Writing Unit
  | none => pure ()
  | some nodes => do
    beginClause words
    writeNodes layout commaSpace nodes

/-- Writes the projections of a statement, if there are any, after a space. -/
def writeProjections (layout : ProjectionLayout) (separator : List Piece) :
    Option (List Node) → Writing Unit
  | none => pure ()
  | some nodes => do
    put .space
    writeNodes layout separator nodes

/-- Writes a sort key. -/
def SortKey.write (layout : ProjectionLayout) : SortKey → Writing Unit
  | ⟨key, options⟩ => do
    key.write layout
    putAll (options.flatMap fun option => .space :: Piece.words option.keywords)

/-- Writes sort keys with a comma and a space between neighbours. -/
def writeKeys (layout : ProjectionLayout) : List SortKey → Writing Unit
  | [] => pure ()
  | [key] => key.write layout
  | key :: next :: keys => do
    key.write layout
    putAll commaSpace
    writeKeys layout (next :: keys)

/-- Writes an ordering, if it is there. -/
def writeOrder (layout : ProjectionLayout) : Option (List SortKey) → Writing Unit
  | none => pure ()
  | some keys => do
    beginClause [.order, .by_]
    writeKeys layout keys

/-- Writes the row count of an `OFFSET`, which shares the line of a `LIMIT` before it. -/
def writeOffset (layout : ProjectionLayout) (shared : Bool) : Option Node → Writing Unit
  | none => pure ()
  | some count => do
    let place ← here
    -- Without a limit the offset has to begin the line itself.
    put (if shared then .space else .line place.indent)
    putAll [.keyword .offset, .space]
    count.write layout

/-- Writes a statement and returns to the place where it began. -/
def Select.write (layout : ProjectionLayout) : Select → Writing Unit
  | ⟨distinct, projections, sources, filter, groupBy, orderBy, limit, offset⟩ => do
    -- The outermost statement begins where the page does, without a line break.
    let outer ← here
    putAll (if outer.enclosing.isSome then [.line outer.nested] else [])
    moveTo outer.clause
    put (.keyword .select)
    putAll (if distinct then [.space, .keyword .distinct] else [])
    writeProjections layout (layout.separator outer.nested) projections
    writeListClause layout [.from_] sources
    -- Only the condition of the statement itself breaks lines at its connectives.
    moveTo outer.filter
    writeClause layout [.where_] filter
    moveTo outer.clause
    writeListClause layout [.group, .by_] groupBy
    writeOrder layout orderBy
    writeClause layout [.limit] limit
    writeOffset layout limit.isSome offset
    -- The line break after the statement is indented for what goes on around it.
    moveTo outer
    put (.line outer.indent)

end

/-- The text that a page holds after writing from an empty one outside any statement. -/
def Writing.textOf (writing : Writing Unit) : String :=
  -- The place at the end is dropped, since nothing more is written.
  (writing.run ⟨.top, ""⟩).2.text

/-- The text of a node printed on its own. -/
def Node.format (options : FormatOptions) (node : Node) : String :=
  -- Only the layout of projections is open, so that is all the writer is told.
  (node.write options.projections).textOf

/-- The text of a statement printed on its own. -/
def Select.format (options : FormatOptions) (statement : Select) : String :=
  -- A statement on its own starts at the margin with no line break before it.
  (statement.write options.projections).textOf

end SelectSql
