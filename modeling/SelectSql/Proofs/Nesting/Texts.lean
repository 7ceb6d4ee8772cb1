import SelectSql.Layout.Form
import SelectSql.Syntax.Induction

/-!
The texts that a tree holds. Its printed form shows them one after another, and everything else in
that form is the same for every tree of its shape.
-/

namespace SelectSql

mutual

/-- The literals and names in a node, in the order in which they are printed. -/
def Node.texts : Node → List String
  -- The name of a function is a name like those of tables and columns.
  | .literal text => [text]
  | .reference table name => table.toList ++ [name]
  | .call name arguments => name :: nodeTexts arguments
  | .range low high => low.texts ++ high.texts
  | .list items => nodeTexts items
  | .case subject branches otherwise =>
    optionTexts subject ++ branchTexts branches ++ optionTexts otherwise
  | .binary left _ right _ => left.texts ++ right.texts
  | .unary _ operand => operand.texts
  | .parens inner => inner.texts
  | .aliasAs inner name => inner.texts ++ [name]
  | .aliasBare inner name => inner.texts ++ [name]
  | .join _ left right condition => left.texts ++ right.texts ++ optionTexts condition
  | .subscript value index => value.texts ++ index.texts
  | .cast value target => value.texts ++ target.texts
  | .select statement => statement.texts

/-- The texts in nodes. -/
def nodeTexts : List Node → List String
  | [] => []
  | node :: nodes => node.texts ++ nodeTexts nodes

/-- The texts in a node that may be absent. -/
def optionTexts : Option Node → List String
  | none => []
  | some node => node.texts

/-- The texts in nodes that may be absent. -/
def listTexts : Option (List Node) → List String
  | none => []
  | some nodes => nodeTexts nodes

/-- The texts in a branch. -/
def Branch.texts : Branch → List String
  | ⟨condition, result⟩ => condition.texts ++ result.texts

/-- The texts in branches. -/
def branchTexts : List Branch → List String
  | [] => []
  | branch :: branches => branch.texts ++ branchTexts branches

/-- The texts in a sort key. -/
def SortKey.texts : SortKey → List String
  -- Modifiers are words of the language and no texts of the tree.
  | ⟨key, _⟩ => key.texts

/-- The texts in sort keys. -/
def keyTexts : List SortKey → List String
  | [] => []
  | key :: keys => key.texts ++ keyTexts keys

/-- The texts in sort keys that may be absent. -/
def orderTexts : Option (List SortKey) → List String
  | none => []
  | some keys => keyTexts keys

/-- The literals and names in a statement, in the order in which they are printed. -/
def Select.texts : Select → List String
  | ⟨_, projections, sources, filter, groupBy, orderBy, limit, offset⟩ =>
    listTexts projections ++ listTexts sources ++ optionTexts filter ++ listTexts groupBy ++
      orderTexts orderBy ++ optionTexts limit ++ optionTexts offset

end

/-- The text from the tree that a piece shows. -/
def Piece.verbatim? : Piece → Option String
  -- Keywords, marks and white space are no texts of the tree.
  | .verbatim text => some text
  | .symbol _ | .space | .line _ | .joint _ => none

/-- The texts from the tree that pieces show. -/
def shownTexts (pieces : List Piece) : List String :=
  -- A text that occurs twice is shown twice.
  pieces.filterMap Piece.verbatim?

variable {α β : Type} {layout : ProjectionLayout} {place : Place} {pieces : List Piece}

/-- What is done to lists piece by piece is done to each of them and to what separates them. -/
theorem intercalate_of_append {each : List α → List β} (nil : each [] = [])
    (append : ∀ first second, each (first ++ second) = each first ++ each second)
    (separator : List α) (lists : List (List α)) :
    each (List.intercalate separator lists) =
      List.intercalate (each separator) (lists.map each) := by
  -- A separator stands only where a further list follows.
  induction lists with
  | nil => exact nil
  | cons first lists ih =>
    cases lists with
    | nil => simp only [List.intercalate_singleton, List.map_cons, List.map_nil]
    | cons next lists =>
      rw [List.intercalate_cons_cons, append, append, ih]
      simp only [List.map_cons, List.intercalate_cons_cons]

section Shown

/-- Pieces in a row show their texts in a row. -/
@[simp] theorem shownTexts_append (first second : List Piece) :
    shownTexts (first ++ second) = shownTexts first ++ shownTexts second :=
  List.filterMap_append

/-- Nothing shows no text. -/
@[simp] theorem shownTexts_nil : shownTexts [] = [] := rfl

/-- The text of a first piece is shown first. -/
@[simp] theorem shownTexts_cons (piece : Piece) :
    shownTexts (piece :: pieces) = piece.verbatim?.toList ++ shownTexts pieces := by
  cases piece <;> rfl

/-- A text from the tree is shown as such. -/
@[simp] theorem Piece.verbatim?_verbatim (text : String) :
    (verbatim text).verbatim? = some text := rfl

/-- A space is no text from the tree. -/
@[simp] theorem Piece.verbatim?_space : space.verbatim? = none := rfl

/-- A line break is no text from the tree. -/
@[simp] theorem Piece.verbatim?_line (indent : Nat) : (line indent).verbatim? = none := rfl

/-- A symbol is no text from the tree. -/
@[simp] theorem Piece.verbatim?_symbol (terminal : Terminal) :
    (symbol terminal).verbatim? = none := rfl

/-- A keyword is no text from the tree. -/
@[simp] theorem Piece.verbatim?_keyword (word : Keyword) : (keyword word).verbatim? = none := rfl

/-- A mark is no text from the tree. -/
@[simp] theorem Piece.verbatim?_mark (sign : Mark) : (mark sign).verbatim? = none := rfl

/-- Nothing from the tree stands before an operator. -/
@[simp] theorem Place.verbatim?_gapBefore (op : BinaryOp) :
    (place.gapBefore op).verbatim? = none := by
  unfold Place.gapBefore
  split <;> rfl

/-- Symbols in a row show no text from the tree. -/
@[simp] theorem shownTexts_spaced (terminals : List Terminal) :
    shownTexts (Piece.spaced terminals) = [] := by
  induction terminals with
  | nil => rfl
  | cons terminal terminals ih =>
    cases terminals with
    | nil => rfl
    | cons next terminals => exact ih

/-- Modifiers show no text from the tree. -/
@[simp] theorem shownTexts_modifiers (options : List SortOption) :
    shownTexts (options.flatMap fun option => .space :: Piece.words option.keywords) = [] := by
  induction options with
  | nil => rfl
  | cons option options ih => simpa [Piece.words] using ih

/-- What separates neighbours shows nothing, so the texts of lists follow each other directly. -/
theorem shownTexts_intercalate {separator : List Piece} (plain : shownTexts separator = [])
    (lists : List (List Piece)) :
    shownTexts (List.intercalate separator lists) = lists.flatMap shownTexts := by
  -- What is left is to join with nothing in between.
  rw [intercalate_of_append rfl shownTexts_append, plain]
  induction lists with
  | nil => rfl
  | cons first lists ih =>
    cases lists with
    | nil => simp
    | cons next lists =>
      simp only [List.map_cons, List.intercalate_cons_cons, List.append_nil]
      exact congrArg (shownTexts first ++ ·) ih

/-- Items with commas between them show their texts one after another. -/
@[simp] theorem shownTexts_commaList (items : List (List Piece)) :
    shownTexts (commaList items) = items.flatMap shownTexts :=
  shownTexts_intercalate rfl items

/-- A part shows the same texts with the words that announce it. -/
@[simp] theorem flatMap_announced (words : List Keyword) (content : Option (List Piece)) :
    (announced words content).flatMap shownTexts = (content.map shownTexts).getD [] := by
  cases content <;> simp [announced, Piece.words]

/-- A part that may be absent shows its texts if it is there. -/
theorem flatMap_option (content : Option (List Piece)) :
    content.toList.flatMap shownTexts = (content.map shownTexts).getD [] := by
  cases content <;> simp

/-- Parts show the same texts on a line of their own. -/
@[simp] theorem shownTexts_ownLine (indent : Nat) (parts : List (List Piece)) :
    shownTexts (ownLine indent parts) = parts.flatMap shownTexts := by
  cases parts with
  | nil => rfl
  | cons first parts => exact shownTexts_intercalate rfl (first :: parts)

end Shown

section Trees

/-- The printed form of a node shows its texts, at any place. -/
private def Shown (layout : ProjectionLayout) (node : Node) : Prop :=
  ∀ place, shownTexts (node.pieces layout place) = node.texts

/-- Nodes show their texts one after another. -/
private theorem shownTexts_nodes {nodes : List Node} (each : ∀ node ∈ nodes, Shown layout node) :
    (nodePieces layout nodes place).flatMap shownTexts = nodeTexts nodes := by
  induction nodes with
  | nil => rfl
  | cons node nodes ih =>
    obtain ⟨first, others⟩ := List.forall_mem_cons.1 each
    rw [nodePieces, List.flatMap_cons, first place, ih others, nodeTexts]

/-- A node that may be absent shows its texts if it is there. -/
private theorem shownTexts_option {option : Option Node}
    (each : ∀ node ∈ option, Shown layout node) :
    ((optionPieces layout option place).map shownTexts).getD [] = optionTexts option := by
  cases option with
  | none => rfl
  | some node => exact each node rfl place

/-- Branches show their texts one after another. -/
private theorem shownTexts_branches {branches : List Branch}
    (each : ∀ branch ∈ branches, Shown layout branch.condition ∧ Shown layout branch.result) :
    (branchPieces layout branches place).flatMap shownTexts = branchTexts branches := by
  induction branches with
  | nil => rfl
  | cons branch branches ih =>
    obtain ⟨⟨condition, result⟩, others⟩ := List.forall_mem_cons.1 each
    obtain ⟨subject, value⟩ := branch
    simp [branchPieces, Branch.pieces, branchTexts, Branch.texts, condition place, result place,
      ih others]

/-- Sort keys show the texts of their expressions one after another. -/
private theorem shownTexts_keys {keys : List SortKey}
    (each : ∀ key ∈ keys, Shown layout key.key) :
    (keyPieces layout keys place).flatMap shownTexts = keyTexts keys := by
  induction keys with
  | nil => rfl
  | cons key keys ih =>
    obtain ⟨first, others⟩ := List.forall_mem_cons.1 each
    obtain ⟨key, options⟩ := key
    simp [keyPieces, SortKey.pieces, keyTexts, SortKey.texts, first place, ih others]

/-- A clause of nodes shows their texts if it is there. -/
private theorem shownTexts_clause {content : Option (List Node)}
    (each : ∀ nodes ∈ content, ∀ node ∈ nodes, Shown layout node) :
    (((listPieces layout content place).map commaList).map shownTexts).getD [] =
      listTexts content := by
  cases content with
  | none => rfl
  | some nodes =>
    exact (shownTexts_intercalate rfl _).trans (shownTexts_nodes (each nodes rfl))

/-- Projections show their texts if there are any. -/
private theorem shownTexts_projections {content : Option (List Node)}
    (each : ∀ nodes ∈ content, ∀ node ∈ nodes, Shown layout node) (indent : Nat) :
    shownTexts (((listPieces layout content place).map fun items =>
      .space :: List.intercalate (layout.separator indent) items).getD []) =
        listTexts content := by
  -- Whether they share a line or not, nothing from the tree separates them.
  have plain : shownTexts (layout.separator indent) = [] := by cases layout <;> rfl
  cases content with
  | none => rfl
  | some nodes =>
    exact (shownTexts_intercalate plain _).trans (shownTexts_nodes (each nodes rfl))

/-- An ordering shows the texts of its keys if it is there. -/
private theorem shownTexts_order {content : Option (List SortKey)}
    (each : ∀ keys ∈ content, ∀ key ∈ keys, Shown layout (SortKey.key key)) :
    (((orderPieces layout content place).map commaList).map shownTexts).getD [] =
      orderTexts content := by
  cases content with
  | none => rfl
  | some keys =>
    exact (shownTexts_intercalate rfl _).trans (shownTexts_keys (each keys rfl))

/-- Parts of a choice show the same texts with a space after each. -/
private theorem shownTexts_spacedOut (parts : List (List Piece)) :
    shownTexts (parts.flatMap (· ++ [.space])) = parts.flatMap shownTexts := by
  induction parts with
  | nil => rfl
  | cons part parts ih => simp [ih]

/-- Nodes show their texts, and so do statements. -/
private theorem shownTexts_trees (layout : ProjectionLayout) : TreeInduction (Shown layout)
    fun statement => ∀ place, shownTexts (statement.pieces layout place) = statement.texts where
  -- The texts are collected in the order of printing, so each case compares them part by part.
  literal text place := by simp [Node.pieces, Node.texts]
  reference table name place := by cases table <;> simp [Node.pieces, Node.texts]
  call name arguments each place := by
    simp [Node.pieces, Node.texts, inParens, shownTexts_nodes each]
  range low high lowShown highShown place := by
    simp [Node.pieces, Node.texts, lowShown place, highShown place]
  list items each place := by simp [Node.pieces, Node.texts, inParens, shownTexts_nodes each]
  case subject branches otherwise subjectShown branchesShown otherwiseShown place := by
    simp [Node.pieces, Node.texts, shownTexts_spacedOut, flatMap_option,
      shownTexts_option subjectShown, shownTexts_branches branchesShown,
      shownTexts_option otherwiseShown]
  binary left op right negated leftShown rightShown place := by
    cases negated <;> simp [Node.pieces, Node.texts, leftShown place, rightShown place]
  unary op operand operandShown place := by
    cases op <;> simp [Node.pieces, Node.texts, UnaryOp.pieces, UnaryOp.isWord, operandShown place]
  parens inner innerShown place := by simp [Node.pieces, Node.texts, inParens, innerShown place]
  aliasAs inner name innerShown place := by simp [Node.pieces, Node.texts, innerShown place]
  aliasBare inner name innerShown place := by simp [Node.pieces, Node.texts, innerShown place]
  join kind left right condition leftShown rightShown conditionShown place := by
    simp [Node.pieces, Node.texts, JoinKind.pieces, Piece.words, leftShown place, rightShown place,
      shownTexts_option conditionShown]
  subscript value index valueShown indexShown place := by
    simp [Node.pieces, Node.texts, valueShown place, indexShown place]
  cast value target valueShown targetShown place := by
    simp [Node.pieces, Node.texts, valueShown place, targetShown place]
  select statement statementShown place := by simp [Node.pieces, Node.texts, statementShown place]
  statement distinct projections sources filter groupBy orderBy limit offset
      projectionsShown sourcesShown filterShown groupByShown orderByShown limitShown
      offsetShown place := by
    -- The line breaks and the words of the clauses hold no text.
    have start : shownTexts (if place.enclosing.isSome then [.line place.nested] else []) = [] := by
      split <;> rfl
    have head : shownTexts
        (.keyword .select :: if distinct then [.space, .keyword .distinct] else []) = [] := by
      cases distinct <;> rfl
    simp only [Select.pieces, Select.texts, shownTexts_append, shownTexts_ownLine,
      List.flatMap_append, flatMap_announced, start, head, shownTexts_projections projectionsShown,
      shownTexts_clause sourcesShown, shownTexts_option filterShown, shownTexts_clause groupByShown,
      shownTexts_order orderByShown, shownTexts_option limitShown, shownTexts_option offsetShown]
    simp

/-- The printed form of a statement shows its texts, in every layout and at any place. -/
theorem Select.shownTexts_pieces (statement : Select) (layout : ProjectionLayout) (place : Place) :
    shownTexts (statement.pieces layout place) = statement.texts :=
  (shownTexts_trees layout).whole statement place

end Trees

end SelectSql
