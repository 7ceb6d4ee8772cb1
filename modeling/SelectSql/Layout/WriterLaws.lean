import SelectSql.Layout.Writer
import SelectSql.Syntax.Induction

/-!
What is written is the printed form, and the place is left as it was found. So each node is written
alike whatever was written before it.
-/

namespace SelectSql

namespace Piece

/-- The text of pieces begins with the text of the first. -/
theorem concat_cons (piece : Piece) (pieces : List Piece) :
    concat (piece :: pieces) = piece.text ++ concat pieces := by
  -- Joining texts starts with the first of them.
  simp [concat, String.join_cons]

/-- The text of a single piece is its own. -/
theorem concat_singleton (piece : Piece) : concat [piece] = piece.text := by
  -- Nothing is joined to it.
  simp [concat]

/-- Pieces in a row make their texts in a row. -/
theorem concat_append (first second : List Piece) :
    concat (first ++ second) = concat first ++ concat second := by
  -- The first list is consumed piece by piece.
  induction first with
  | nil => simp [concat, String.join]
  | cons piece pieces ih => simp [concat_cons, ih, String.append_assoc]

end Piece

namespace Page

/-- A page with the text of pieces added, at the same place. -/
def add (page : Page) (pieces : List Piece) : Page :=
  -- Only the text grows.
  { page with text := page.text ++ Piece.concat pieces }

/-- Adding pieces does not move. -/
@[simp] theorem place_add (page : Page) (pieces : List Piece) :
    (page.add pieces).place = page.place :=
  -- The place is a field of its own.
  rfl

/-- Adding nothing changes nothing. -/
@[simp] theorem add_nil (page : Page) : page.add [] = page := by
  -- No pieces make the empty text.
  simp [add, Piece.concat, String.join]

/-- Pieces added one after another are pieces added in a row. -/
@[simp] theorem add_add (page : Page) (first second : List Piece) :
    (page.add first).add second = page.add (first ++ second) := by
  -- Appending texts does not depend on the grouping.
  simp [add, Piece.concat_append, String.append_assoc]

/-- A page at another place. -/
def at_ (page : Page) (place : Place) : Page :=
  -- Only the place is replaced.
  { page with place }

/-- Pieces may be added before moving or after it. -/
@[simp] theorem at_add (page : Page) (pieces : List Piece) (place : Place) :
    (page.add pieces).at_ place = (page.at_ place).add pieces :=
  -- Place and text are separate fields.
  rfl

/-- Only the last move counts. -/
@[simp] theorem at_at (page : Page) (first second : Place) :
    (page.at_ first).at_ second = page.at_ second :=
  -- The first place is replaced before it is used.
  rfl

/-- The place moved to is the place of the page. -/
@[simp] theorem place_at (page : Page) (place : Place) : (page.at_ place).place = place :=
  -- The place is the field that was replaced.
  rfl

/-- Moving to where the page is changes nothing. -/
@[simp] theorem at_place (page : Page) : page.at_ page.place = page :=
  -- Every field keeps its value.
  rfl

end Page

namespace Writing

/-- Writing a piece adds it. -/
@[simp] theorem run_put (piece : Piece) (page : Page) :
    (put piece).run page = pure ((), page.add [piece]) := by
  -- The text of a single piece is its own.
  simp [put, Page.add, Piece.concat, String.join]

/-- Writing pieces in a row adds them in a row. -/
@[simp] theorem run_putAll (pieces : List Piece) (page : Page) :
    (putAll pieces).run page = pure ((), page.add pieces) := by
  -- Each piece is added to what the earlier ones left.
  induction pieces generalizing page with
  | nil => simp [putAll]
  | cons piece pieces ih =>
    simp only [putAll] at ih
    simp [putAll, ih]

/-- Moving changes the place. -/
@[simp] theorem run_moveTo (place : Place) (page : Page) :
    (moveTo place).run page = pure ((), page.at_ place) := by
  -- Both sides replace the same field.
  simp [moveTo, Page.at_]

/-- Asking for the place changes nothing. -/
@[simp] theorem run_here (page : Page) : here.run page = pure (page.place, page) := by
  -- Reading the page leaves it in place.
  simp [here]

/-- Beginning a clause adds a line break and its words. -/
@[simp] theorem run_beginClause (words : List Keyword) (page : Page) :
    (beginClause words).run page =
      pure ((), page.add (.line page.place.indent :: Piece.words words ++ [.space])) := by
  -- Three additions in a row are one.
  simp [beginClause]

end Writing

/-- Writing a node adds its printed form at the place of the page, and stays there. -/
private def Written (layout : ProjectionLayout) (node : Node) : Prop :=
  -- The text before it is left open, so nothing in it can matter.
  ∀ page, (node.write layout).run page = pure ((), page.add (node.pieces layout page.place))

variable {layout : ProjectionLayout}

/-- Writing nodes adds their printed forms with the separators between them. -/
private theorem run_writeNodes {separator : List Piece} {nodes : List Node}
    (each : ∀ node ∈ nodes, Written layout node) (page : Page) :
    (writeNodes layout separator nodes).run page =
      pure ((), page.add (List.intercalate separator (nodePieces layout nodes page.place))) := by
  -- A separator is written only where a further node follows, as in the printed form.
  induction nodes generalizing page with
  | nil => simp [writeNodes, nodePieces, List.intercalate]
  | cons node nodes ih =>
    have first := each node (by simp)
    -- Whether a separator follows depends on whether another node does.
    cases nodes with
    | nil => simp [writeNodes, nodePieces, List.intercalate, first page]
    | cons next rest =>
      have others := ih fun node member => each node (by simp [member])
      simp [writeNodes, nodePieces, List.intercalate, first page, others]

/-- Writing a part of a choice adds what introduces it, its printed form and a space. -/
private theorem run_writePart {introduction : List Piece} {part : Option Node}
    (each : ∀ node ∈ part, Written layout node) (page : Page) :
    (writePart layout introduction part).run page =
      pure ((), page.add (((optionPieces layout part page.place).map fun pieces =>
        introduction ++ pieces ++ [.space]).getD [])) := by
  -- An absent part writes nothing, not even its introduction.
  cases part with
  | none => simp [writePart, optionPieces]
  | some node => simp [writePart, optionPieces, each node rfl _]

/-- Writing branches adds their printed forms, each before a space. -/
private theorem run_writeBranches {branches : List Branch}
    (each : ∀ branch ∈ branches, Written layout branch.condition ∧ Written layout branch.result)
    (page : Page) :
    (writeBranches layout branches).run page =
      pure ((), page.add ((branchPieces layout branches page.place).flatMap (· ++ [.space]))) := by
  -- Every branch is written at the place where the first one was.
  induction branches generalizing page with
  | nil => simp [writeBranches, branchPieces]
  | cons branch branches ih =>
    obtain ⟨condition, result⟩ := branch
    have first := each ⟨condition, result⟩ (by simp)
    have others := ih fun branch member => each branch (by simp [member])
    simp [writeBranches, Branch.write, branchPieces, Branch.pieces, first.1 _, first.2 _, others]

/-- Writing a clause that holds a node adds a line with its words and the printed form. -/
private theorem run_writeClause {words : List Keyword} {content : Option Node}
    (each : ∀ node ∈ content, Written layout node) (page : Page) :
    (writeClause layout words content).run page =
      pure ((), page.add (ownLine page.place.indent
        (announced words (optionPieces layout content page.place)))) := by
  -- An absent clause has no line.
  cases content with
  | none => simp [writeClause, optionPieces, announced, ownLine]
  | some node =>
    simp [writeClause, optionPieces, announced, ownLine, List.intercalate, each node rfl _]

/-- Writing a clause that holds nodes adds a line with its words and the printed forms. -/
private theorem run_writeListClause {words : List Keyword} {content : Option (List Node)}
    (each : ∀ nodes ∈ content, ∀ node ∈ nodes, Written layout node) (page : Page) :
    (writeListClause layout words content).run page =
      pure ((), page.add (ownLine page.place.indent
        (announced words ((listPieces layout content page.place).map commaList)))) := by
  -- An absent clause has no line, and an empty list still has one.
  cases content with
  | none => simp [writeListClause, listPieces, announced, ownLine]
  | some nodes =>
    simp [writeListClause, listPieces, announced, ownLine, List.intercalate, commaList,
      run_writeNodes (each nodes rfl) _]

/-- Writing projections adds a space and the printed forms. -/
private theorem run_writeProjections {separator : List Piece} {content : Option (List Node)}
    (each : ∀ nodes ∈ content, ∀ node ∈ nodes, Written layout node) (page : Page) :
    (writeProjections layout separator content).run page =
      pure ((), page.add (((listPieces layout content page.place).map fun items =>
        .space :: List.intercalate separator items).getD [])) := by
  -- The space belongs to the projections and not to the `SELECT` before them.
  cases content with
  | none => simp [writeProjections, listPieces]
  | some nodes => simp [writeProjections, listPieces, run_writeNodes (each nodes rfl) _]

/-- Writing sort keys adds their printed forms with a comma and a space between them. -/
private theorem run_writeKeys {keys : List SortKey} (each : ∀ key ∈ keys, Written layout key.key)
    (page : Page) :
    (writeKeys layout keys).run page =
      pure ((), page.add (commaList (keyPieces layout keys page.place))) := by
  -- A separator is written only where a further key follows, as in the printed form.
  induction keys generalizing page with
  | nil => simp [writeKeys, keyPieces, commaList, List.intercalate]
  | cons key keys ih =>
    obtain ⟨key, options⟩ := key
    have first := each ⟨key, options⟩ (by simp)
    -- Whether a separator follows depends on whether another key does.
    cases keys with
    | nil =>
      simp [writeKeys, SortKey.write, keyPieces, SortKey.pieces, commaList, List.intercalate,
        first _]
    | cons next rest =>
      have others := ih fun key member => each key (by simp [member])
      simp [writeKeys, SortKey.write, keyPieces, SortKey.pieces, commaList,
        List.intercalate] at others ⊢
      simp [first _, others]

/-- Writing an ordering adds a line with its words and the printed forms of its keys. -/
private theorem run_writeOrder {content : Option (List SortKey)}
    (each : ∀ keys ∈ content, ∀ key ∈ keys, Written layout (SortKey.key key)) (page : Page) :
    (writeOrder layout content).run page =
      pure ((), page.add (ownLine page.place.indent
        (announced [.order, .by_] ((orderPieces layout content page.place).map commaList)))) := by
  -- An absent ordering has no line.
  cases content with
  | none => simp [writeOrder, orderPieces, announced, ownLine]
  | some keys =>
    simp [writeOrder, orderPieces, announced, ownLine, List.intercalate,
      run_writeKeys (each keys rfl) _]

/-- Writing an offset adds its printed form after a space or on a line of its own. -/
private theorem run_writeOffset {shared : Bool} {offset : Option Node}
    (each : ∀ node ∈ offset, Written layout node) (page : Page) :
    (writeOffset layout shared offset).run page =
      pure ((), page.add (((optionPieces layout offset page.place).map fun pieces =>
        (if shared then .space else .line page.place.indent)
          :: .keyword .offset :: .space :: pieces).getD [])) := by
  -- Whether the line is shared does not depend on the offset.
  cases offset with
  | none => simp [writeOffset, optionPieces]
  | some count => simp [writeOffset, optionPieces, each count rfl _]

/-- A limit and an offset share a line. -/
private theorem ownLine_counts (layout : ProjectionLayout) (limit offset : Option Node)
    (place : Place) :
    ownLine place.indent (announced [.limit] (optionPieces layout limit place)
        ++ announced [.offset] (optionPieces layout offset place)) =
      ownLine place.indent (announced [.limit] (optionPieces layout limit place)) ++
        ((optionPieces layout offset place).map fun pieces =>
          (if limit.isSome then .space else .line place.indent)
            :: .keyword .offset :: .space :: pieces).getD [] := by
  -- The second count begins a line of its own only if the first is absent.
  cases limit <;> cases offset <;>
    simp [optionPieces, announced, ownLine, List.intercalate, Piece.words, Piece.spaced,
      Piece.keyword]

/-- Nodes are written in their printed forms, and so are statements. -/
private theorem written (layout : ProjectionLayout) :
    TreeInduction (Written layout) fun statement => ∀ page,
      (statement.write layout).run page =
        pure ((), page.add (statement.pieces layout page.place)) where
  -- Nodes without parts are a single run of pieces.
  literal text page := by simp [Node.write, Node.pieces]
  reference table name page := by cases table <;> simp [Node.write, Node.pieces]
  -- All parts are written from pages at one place, since each returns to it.
  call name arguments each page := by
    simp [Node.write, Node.pieces, inParens, commaList, run_writeNodes each]
  range low high lowWritten highWritten page := by
    simp [Node.write, Node.pieces, lowWritten _, highWritten _]
  list items each page := by
    simp [Node.write, Node.pieces, inParens, commaList, run_writeNodes each]
  case subject branches otherwise subjectWritten branchesWritten otherwiseWritten page := by
    simp [Node.write, Node.pieces, run_writePart subjectWritten, run_writeBranches branchesWritten,
      run_writePart otherwiseWritten, announced]
    -- What is left is to group the pieces of the two optional parts alike.
    cases optionPieces layout subject page.place <;>
      cases optionPieces layout otherwise page.place <;>
      simp [Piece.words, Piece.spaced, Piece.keyword]
  binary left op right negated leftWritten rightWritten page := by
    simp [Node.write, Node.pieces, leftWritten _, rightWritten _]
  unary op operand operandWritten page := by simp [Node.write, Node.pieces, operandWritten _]
  parens inner innerWritten page := by simp [Node.write, Node.pieces, inParens, innerWritten _]
  aliasAs inner name innerWritten page := by simp [Node.write, Node.pieces, innerWritten _]
  aliasBare inner name innerWritten page := by simp [Node.write, Node.pieces, innerWritten _]
  join kind left right condition leftWritten rightWritten conditionWritten page := by
    simp [Node.write, Node.pieces, leftWritten _, rightWritten _, run_writeClause conditionWritten]
  subscript value index valueWritten indexWritten page := by
    simp [Node.write, Node.pieces, valueWritten _, indexWritten _]
  cast value target valueWritten targetWritten page := by
    simp [Node.write, Node.pieces, valueWritten _, targetWritten _]
  select statement statementWritten page := by simp [Node.write, Node.pieces, statementWritten _]
  -- The clauses are written inside the statement, and the last move leads back out of it.
  statement distinct projections sources filter groupBy orderBy limit offset
      projectionsWritten sourcesWritten filterWritten groupByWritten orderByWritten limitWritten
      offsetWritten page := by
    have counts := ownLine_counts layout limit offset page.place.clause
    simp only [Place.indent_clause] at counts
    simp [Select.write, Select.pieces, run_writeProjections projectionsWritten,
      run_writeListClause sourcesWritten, run_writeClause filterWritten,
      run_writeListClause groupByWritten, run_writeOrder orderByWritten,
      run_writeClause limitWritten, run_writeOffset offsetWritten, counts]

/-- Writing a node adds its printed form at the place of the page, and leaves the page there. -/
theorem Node.run_write (node : Node) (page : Page) :
    (node.write layout).run page = pure ((), page.add (node.pieces layout page.place)) :=
  -- Nodes are one half of the induction over trees.
  (written layout).node node page

/-- Writing a statement adds its printed form, and returns to the place where it began. -/
theorem Select.run_write (statement : Select) (page : Page) :
    (statement.write layout).run page = pure ((), page.add (statement.pieces layout page.place)) :=
  -- Statements are the other half of the induction over trees.
  (written layout).whole statement page

/-- The text of a node is that of its printed form outside any statement. -/
theorem Node.format_eq (options : FormatOptions) (node : Node) :
    node.format options = Piece.concat (node.pieces options.projections .top) := by
  -- An empty page shows exactly what is written on it.
  rw [Node.format, Writing.textOf, Node.run_write]
  exact String.empty_append

/-- The text of a statement is that of its printed form outside any other. -/
theorem Select.format_eq (options : FormatOptions) (statement : Select) :
    statement.format options = Piece.concat (statement.pieces options.projections .top) := by
  -- An empty page shows exactly what is written on it.
  rw [Select.format, Writing.textOf, Select.run_write]
  exact String.empty_append

end SelectSql
