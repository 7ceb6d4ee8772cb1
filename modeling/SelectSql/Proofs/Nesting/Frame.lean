import SelectSql.Layout.WriterLaws
import SelectSql.Proofs.Printing.Expression

/-!
Trees with a node left open. Whatever is put there, it is printed as it is at that place, and what
is printed around it stays the same.
-/

namespace SelectSql

/-- Where in a statement a node stands. -/
inductive Position where
  /-- Among the projections. -/
  | projection (before after : List Node)
  /-- Among the sources. -/
  | source (before after : List Node)
  /-- In `WHERE`. -/
  | filter
  /-- Among the expressions of `GROUP BY`. -/
  | group (before after : List Node)
  /-- Among the keys of `ORDER BY`, with its modifiers. -/
  | key (before : List SortKey) (options : List SortOption) (after : List SortKey)
  /-- In `LIMIT`. -/
  | limit
  /-- In `OFFSET`. -/
  | offset

/-- A node with one of its parts left open. -/
inductive Frame where
  /-- A call, open at an argument. -/
  | argument (name : String) (before after : List Node)
  /-- A range, open at its lower bound. -/
  | lower (high : Node)
  /-- A range, open at its upper bound. -/
  | upper (low : Node)
  /-- A list, open at an item. -/
  | item (before after : List Node)
  /-- A choice, open at its subject. -/
  | chooser (branches : List Branch) (otherwise : Option Node)
  /-- A choice, open at the condition of a branch. -/
  | tested (subject : Option Node) (before : List Branch) (result : Node) (after : List Branch)
    (otherwise : Option Node)
  /-- A choice, open at the result of a branch. -/
  | taken (subject : Option Node) (before : List Branch) (condition : Node) (after : List Branch)
    (otherwise : Option Node)
  /-- A choice, open after its `ELSE`. -/
  | fallback (subject : Option Node) (branches : List Branch)
  /-- A binary operation, open at its left operand. -/
  | leftOperand (op : BinaryOp) (right : Node) (negated : Bool)
  /-- A binary operation, open at its right operand. -/
  | rightOperand (left : Node) (op : BinaryOp) (negated : Bool)
  /-- A unary operation. -/
  | operand (op : UnaryOp)
  /-- Parentheses. -/
  | parens
  /-- Something with a name after `AS`. -/
  | aliasAs (name : String)
  /-- Something with a bare name. -/
  | aliasBare (name : String)
  /-- A join, open at its left member. -/
  | joinLeft (kind : JoinKind) (right : Node) (condition : Option Node)
  /-- A join, open at its right member. -/
  | joinRight (kind : JoinKind) (left : Node) (condition : Option Node)
  /-- A join, open at its condition. -/
  | joinOn (kind : JoinKind) (left right : Node)
  /-- A subscript, open at its value. -/
  | subscriptValue (index : Node)
  /-- A subscript, open at its index. -/
  | subscriptIndex (value : Node)
  /-- A conversion, open at its value. -/
  | castValue (target : Node)
  /-- A conversion, open at its type. -/
  | castTarget (value : Node)
  /-- A statement, open at a position; what it has there itself is left out. -/
  | clause (statement : Select) (position : Position)

/-- A tree with a node left open, as the frames around that node from the outermost inwards. -/
abbrev Surroundings := List Frame

/-- A statement with a node put at a position. -/
def Position.fill (statement : Select) (inner : Node) : Position → Select
  | .projection before after => { statement with projections := some (before ++ inner :: after) }
  | .source before after => { statement with sources := some (before ++ inner :: after) }
  | .filter => { statement with filter := some inner }
  | .group before after => { statement with groupBy := some (before ++ inner :: after) }
  | .key before options after =>
    { statement with orderBy := some (before ++ ⟨inner, options⟩ :: after) }
  | .limit => { statement with limit := some inner }
  | .offset => { statement with offset := some inner }

namespace Frame

/-- A frame with a node put in the open part. -/
def fill (inner : Node) : Frame → Node
  | .argument name before after => .call name (before ++ inner :: after)
  | .lower high => .range inner high
  | .upper low => .range low inner
  | .item before after => .list (before ++ inner :: after)
  | .chooser branches otherwise => .case (some inner) branches otherwise
  | .tested subject before result after otherwise =>
    .case subject (before ++ ⟨inner, result⟩ :: after) otherwise
  | .taken subject before condition after otherwise =>
    .case subject (before ++ ⟨condition, inner⟩ :: after) otherwise
  | .fallback subject branches => .case subject branches (some inner)
  | .leftOperand op right negated => .binary inner op right negated
  | .rightOperand left op negated => .binary left op inner negated
  | .operand op => .unary op inner
  | .parens => .parens inner
  | .aliasAs name => .aliasAs inner name
  | .aliasBare name => .aliasBare inner name
  | .joinLeft kind right condition => .join kind inner right condition
  | .joinRight kind left condition => .join kind left inner condition
  | .joinOn kind left right => .join kind left right (some inner)
  | .subscriptValue index => .subscript inner index
  | .subscriptIndex value => .subscript value inner
  | .castValue target => .cast inner target
  | .castTarget value => .cast value inner
  | .clause statement position => .select (position.fill statement inner)

/-- Where the open part of a frame is printed that is itself printed at a place. -/
def place (outer : Place) : Frame → Place
  -- Only statements change the place of their parts.
  | .clause _ .filter => outer.filter
  | .clause _ _ => outer.clause
  | _ => outer

end Frame

namespace Surroundings

/-- A tree with a node put where it was open. -/
def fill (inner : Node) : Surroundings → Node
  -- The node is put into the innermost frame.
  | [] => inner
  | frame :: frames => frame.fill (fill inner frames)

/-- Where the open node of a tree is printed that is itself printed at a place. -/
def place (outer : Place) : Surroundings → Place
  -- The place is handed on from the outermost frame inwards.
  | [] => outer
  | frame :: frames => place (frame.place outer) frames

/-- How many statements there are around the open node. -/
def depth : Surroundings → Nat
  -- Frames within an expression or a source do not count.
  | [] => 0
  | .clause _ _ :: frames => depth frames + 1
  | _ :: frames => depth frames

end Surroundings

variable {layout : ProjectionLayout} {part whole : Node → List Piece} {indent : Nat}

/-- The whole of something is printed as a part of it is, with the same pieces before that part and
after it whatever node is in it. -/
def Surrounds (part whole : Node → List Piece) : Prop :=
  ∃ before after, ∀ inner, whole inner = before ++ part inner ++ after

namespace Surrounds

/-- Nothing is printed around a part on its own. -/
theorem alone : Surrounds part part :=
  ⟨[], [], fun inner => by rw [List.nil_append, List.append_nil]⟩

/-- More may be printed before it. -/
theorem after (first : List Piece) (surrounds : Surrounds part whole) :
    Surrounds part fun inner => first ++ whole inner := by
  obtain ⟨before, after, same⟩ := surrounds
  exact ⟨first ++ before, after, fun inner => by simp only [same, List.append_assoc]⟩

/-- One more piece may be printed before it. -/
theorem afterPiece (piece : Piece) (surrounds : Surrounds part whole) :
    Surrounds part fun inner => piece :: whole inner :=
  surrounds.after [piece]

/-- More may be printed after it. -/
theorem before (last : List Piece) (surrounds : Surrounds part whole) :
    Surrounds part fun inner => whole inner ++ last := by
  obtain ⟨before, after, same⟩ := surrounds
  exact ⟨before, after ++ last, fun inner => by simp only [same, List.append_assoc]⟩

/-- Parentheses may be printed around it. -/
theorem inParens (surrounds : Surrounds part whole) :
    Surrounds part fun inner => SelectSql.inParens (whole inner) :=
  (surrounds.afterPiece (.mark .openParen)).before [.mark .closeParen]

/-- It may be printed among others, with something between neighbours. -/
theorem intercalate (separator : List Piece) (firsts lasts : List (List Piece))
    (surrounds : Surrounds part whole) :
    Surrounds part fun inner => List.intercalate separator (firsts ++ whole inner :: lasts) := by
  -- A separator follows the open part only if something comes after it.
  induction firsts with
  | nil =>
    cases lasts with
    | nil => simpa only [List.nil_append, List.intercalate_singleton] using surrounds
    | cons next lasts =>
      simp only [List.nil_append, List.intercalate_cons_cons, List.append_assoc]
      exact surrounds.before _
  | cons first firsts ih =>
    have nonempty : ∀ inner, firsts ++ whole inner :: lasts ≠ [] := by simp
    simp only [List.cons_append, List.intercalate_cons_of_ne_nil (nonempty _)]
    exact ih.after _

/-- It may be printed among others, with a comma between neighbours. -/
theorem commaList (firsts lasts : List (List Piece)) (surrounds : Surrounds part whole) :
    Surrounds part fun inner => SelectSql.commaList (firsts ++ whole inner :: lasts) :=
  surrounds.intercalate commaSpace firsts lasts

/-- It may be printed among others, with a space after each. -/
theorem spacedOut (firsts lasts : List (List Piece)) (surrounds : Surrounds part whole) :
    Surrounds part fun inner => (firsts ++ whole inner :: lasts).flatMap (· ++ [.space]) := by
  simp only [List.flatMap_append, List.flatMap_cons]
  exact ((surrounds.before _).before _).after _

/-- It may be printed among others on a line of their own. -/
theorem ownLine (firsts lasts : List (List Piece)) (surrounds : Surrounds part whole) :
    Surrounds part fun inner => SelectSql.ownLine indent (firsts ++ whole inner :: lasts) := by
  -- The open part is there, so the line is too.
  have shape : ∀ inner, SelectSql.ownLine indent (firsts ++ whole inner :: lasts) =
      .line indent :: List.intercalate [.space] (firsts ++ whole inner :: lasts) := by
    intro inner
    cases firsts <;> rfl
  simp only [shape]
  exact (surrounds.intercalate [.space] firsts lasts).afterPiece _

/-- It may be printed after words that announce it. -/
theorem announcement (words : List Keyword) (surrounds : Surrounds part whole) :
    Surrounds part fun inner => Piece.words words ++ .space :: whole inner :=
  (surrounds.afterPiece .space).after (Piece.words words)

/-- It may be printed on a line of its own after words that announce it. -/
theorem clause (words : List Keyword) (surrounds : Surrounds part whole) :
    Surrounds part fun inner =>
      SelectSql.ownLine indent (announced words (some (whole inner))) :=
  (surrounds.announcement words).ownLine [] []

end Surrounds

/-- Nodes are printed one by one around the one that is left open. -/
theorem nodePieces_fill (before after : List Node) (inner : Node) (place : Place) :
    nodePieces layout (before ++ inner :: after) place =
      nodePieces layout before place ++ inner.pieces layout place ::
        nodePieces layout after place := by
  simp only [nodePieces_eq, List.map_append, List.map_cons]

/-- Branches are printed one by one around the one that is left open. -/
theorem branchPieces_fill (before after : List Branch) (inner : Branch) (place : Place) :
    branchPieces layout (before ++ inner :: after) place =
      branchPieces layout before place ++ inner.pieces layout place ::
        branchPieces layout after place := by
  induction before with
  | nil => rfl
  | cons branch before ih => simp only [List.cons_append, branchPieces, ih]

/-- Sort keys are printed one by one around the one that is left open. -/
theorem keyPieces_fill (before after : List SortKey) (inner : SortKey) (place : Place) :
    keyPieces layout (before ++ inner :: after) place =
      keyPieces layout before place ++ inner.pieces layout place ::
        keyPieces layout after place := by
  induction before with
  | nil => rfl
  | cons key before ih => simp only [List.cons_append, keyPieces, ih]

/-- A statement is printed around the node at a position, which stands in its clauses. -/
theorem Position.surrounds (position : Position) (statement : Select) (layout : ProjectionLayout)
    (place : Place) :
    Surrounds (fun inner => inner.pieces layout ((Frame.clause statement position).place place))
      fun inner => (position.fill statement inner).pieces layout place := by
  -- Each position is reached past the clauses before it, with those after it left as they are.
  cases position with
    simp only [fill, Select.pieces, listPieces, optionPieces, orderPieces, nodePieces_fill,
      keyPieces_fill, SortKey.pieces, Option.map_some, Option.getD_some, List.append_assoc,
      List.cons_append]
  | projection firsts lasts =>
    exact .after _ <| .afterPiece _ <| .after _ <| .afterPiece _ <| .before _ <|
      .intercalate _ _ _ .alone
  | source firsts lasts =>
    exact .after _ <| .afterPiece _ <| .after _ <| .after _ <| .before _ <| .clause _ <|
      .commaList _ _ .alone
  | filter =>
    exact .after _ <| .afterPiece _ <| .after _ <| .after _ <| .after _ <| .before _ <|
      .clause _ .alone
  | group firsts lasts =>
    exact .after _ <| .afterPiece _ <| .after _ <| .after _ <| .after _ <| .after _ <|
      .before _ <| .clause _ <| .commaList _ _ .alone
  | key firsts options lasts =>
    exact .after _ <| .afterPiece _ <| .after _ <| .after _ <| .after _ <| .after _ <| .after _ <|
      .before _ <| .clause _ <| .commaList _ _ <| .before _ .alone
  | limit =>
    exact .after _ <| .afterPiece _ <| .after _ <| .after _ <| .after _ <| .after _ <| .after _ <|
      .after _ <| .before _ <| .ownLine [] _ <| .announcement _ .alone
  | offset =>
    exact .after _ <| .afterPiece _ <| .after _ <| .after _ <| .after _ <| .after _ <| .after _ <|
      .after _ <| .before _ <| .ownLine _ [] <| .announcement _ .alone

/-- A frame is printed around the node that is put into it. -/
theorem Frame.surrounds (frame : Frame) (layout : ProjectionLayout) (place : Place) :
    Surrounds (fun inner => inner.pieces layout (frame.place place))
      fun inner => (frame.fill inner).pieces layout place := by
  -- Each open part is reached from the outside, past what is printed before it and after it.
  cases frame with
    simp only [fill, Node.pieces, nodePieces_fill, branchPieces_fill, Branch.pieces, optionPieces,
      List.flatMap_append, List.flatMap_cons]
  | argument name firsts lasts => exact .afterPiece _ <| .inParens <| .commaList _ _ .alone
  | lower high => exact .before _ <| .before _ .alone
  | upper low => exact .after _ .alone
  | item firsts lasts => exact .inParens <| .commaList _ _ .alone
  | chooser branches otherwise =>
    exact .before _ <| .afterPiece _ <| .afterPiece _ <| .before _ <| .before _ <|
      .spacedOut [] [] .alone
  | tested subject firsts result lasts otherwise =>
    exact .before _ <| .afterPiece _ <| .afterPiece _ <| .before _ <| .after _ <| .after _ <|
      .before _ <| .before _ <| .before _ <| .before _ <| .afterPiece _ <| .afterPiece _ .alone
  | taken subject firsts condition lasts otherwise =>
    exact .before _ <| .afterPiece _ <| .afterPiece _ <| .before _ <| .after _ <| .after _ <|
      .before _ <| .before _ <| .after _ .alone
  | fallback subject branches =>
    exact .before _ <| .afterPiece _ <| .afterPiece _ <| .after _ <|
      .spacedOut [] [] <| .announcement _ .alone
  | leftOperand op right negated => exact .before _ <| .before _ <| .before _ .alone
  | rightOperand left op negated => exact .after _ <| .afterPiece _ .alone
  | operand op => exact .after _ .alone
  | parens => exact .inParens .alone
  | aliasAs name => exact .before _ .alone
  | aliasBare name => exact .before _ .alone
  | joinLeft kind right condition => exact .before _ <| .before _ <| .before _ .alone
  | joinRight kind left condition => exact .before _ <| .after _ <| .afterPiece _ .alone
  | joinOn kind left right => exact .after _ <| .clause _ .alone
  | subscriptValue index => exact .before _ <| .before _ .alone
  | subscriptIndex value => exact .before _ <| .after _ <| .afterPiece _ .alone
  | castValue target => exact .before _ .alone
  | castTarget value => exact .after _ <| .afterPiece _ .alone
  | clause statement position => exact position.surrounds statement layout place

/-- Each statement around the open node indents those inside it by two more. -/
theorem Surroundings.nested_place (around : Surroundings) (place : Place) :
    (around.place place).nested = place.nested + 2 * around.depth := by
  -- No other frame changes the place.
  induction around generalizing place with
  | nil => rfl
  | cons frame frames ih =>
    rw [Surroundings.place, ih]
    cases frame with
    | clause statement position =>
      have deeper : ((Frame.clause statement position).place place).nested = place.nested + 2 := by
        cases position <;> rfl
      rw [deeper, depth]
      omega
    | _ => rfl

/-- A tree is printed around the node that is left open in it. -/
theorem Surroundings.surrounds (around : Surroundings) (layout : ProjectionLayout)
    (place : Place) :
    Surrounds (fun inner => inner.pieces layout (around.place place))
      fun inner => (around.fill inner).pieces layout place := by
  induction around generalizing place with
  | nil => exact .alone
  | cons frame frames ih =>
    -- The frame is filled with all that the further frames hold, the open node among them.
    obtain ⟨before, after, same⟩ := ih (frame.place place)
    obtain ⟨first, last, around⟩ := frame.surrounds layout place
    exact ⟨first ++ before, after ++ last, fun inner => by
      simp only [fill, Surroundings.place, around, same, List.append_assoc]⟩

end SelectSql
