import SelectSql.Layout.WriterLaws
import SelectSql.Text.Blank

/-!
Printed forms that differ in white space. Two forms of a tree are compared part by part: they show
the same characters apart from white space, and the first is longer or no different at all.
-/

namespace SelectSql

section Statements

mutual

/-- The statements that occur anywhere in a node. -/
def Node.statements : Node → List Select
  -- A statement inside another occurs in the node as well.
  | .literal _ | .reference _ _ => []
  | .call _ arguments => nodeStatements arguments
  | .range low high => low.statements ++ high.statements
  | .list items => nodeStatements items
  | .case subject branches otherwise =>
    optionStatements subject ++ branchStatements branches ++ optionStatements otherwise
  | .binary left _ right _ => left.statements ++ right.statements
  | .unary _ operand => operand.statements
  | .parens inner => inner.statements
  | .aliasAs inner _ | .aliasBare inner _ => inner.statements
  | .join _ left right condition =>
    left.statements ++ right.statements ++ optionStatements condition
  | .subscript value index => value.statements ++ index.statements
  | .cast value target => value.statements ++ target.statements
  | .select statement => statement.statements

/-- The statements in nodes. -/
def nodeStatements : List Node → List Select
  | [] => []
  | node :: nodes => node.statements ++ nodeStatements nodes

/-- The statements in a node that may be absent. -/
def optionStatements : Option Node → List Select
  | none => []
  | some node => node.statements

/-- The statements in nodes that may be absent. -/
def listStatements : Option (List Node) → List Select
  | none => []
  | some nodes => nodeStatements nodes

/-- The statements in a branch. -/
def Branch.statements : Branch → List Select
  | ⟨condition, result⟩ => condition.statements ++ result.statements

/-- The statements in branches. -/
def branchStatements : List Branch → List Select
  | [] => []
  | branch :: branches => branch.statements ++ branchStatements branches

/-- The statements in a sort key. -/
def SortKey.statements : SortKey → List Select
  | ⟨key, _⟩ => key.statements

/-- The statements in sort keys. -/
def keyStatements : List SortKey → List Select
  | [] => []
  | key :: keys => key.statements ++ keyStatements keys

/-- The statements in sort keys that may be absent. -/
def orderStatements : Option (List SortKey) → List Select
  | none => []
  | some keys => keyStatements keys

/-- A statement with all those inside it. -/
def Select.statements : Select → List Select
  | ⟨distinct, projections, sources, filter, groupBy, orderBy, limit, offset⟩ =>
    ⟨distinct, projections, sources, filter, groupBy, orderBy, limit, offset⟩ ::
      (listStatements projections ++ listStatements sources ++ optionStatements filter ++
        listStatements groupBy ++ orderStatements orderBy ++
        (optionStatements limit ++ optionStatements offset))

end

/-- The number of projections of a statement. -/
def Select.width (statement : Select) : Nat :=
  -- A statement without projections has none to separate.
  (statement.projections.getD []).length

end Statements

/-- The characters of a text that are left if white space is deleted. -/
def solidChars (text : String) : List Char :=
  text.toList.filter (!isBlank ·)

/-- Pieces in a first layout and in a second one, both printed for the parts of a tree in which some
statements occur. -/
structure Widens (statements : List Select) (wide narrow : List Piece) : Prop where
  /-- Both show the same characters apart from white space. -/
  solid : solidChars (Piece.concat wide) = solidChars (Piece.concat narrow)
  /-- The first is longer if some statement has projections to separate. -/
  longer : ∀ statement ∈ statements, 2 ≤ statement.width →
    (Piece.concat narrow).length < (Piece.concat wide).length
  /-- Otherwise the two are the same. -/
  same : (∀ statement ∈ statements, statement.width < 2) → wide = narrow

/-- Lists of pieces, each of which is in a first layout in one list and in a second in the other. -/
inductive WidensEach : List Select → List (List Piece) → List (List Piece) → Prop where
  | nil : WidensEach [] [] []
  | cons {statements others : List Select} {wide narrow : List Piece}
      {wides narrows : List (List Piece)} (first : Widens statements wide narrow)
      (rest : WidensEach others wides narrows) :
      WidensEach (statements ++ others) (wide :: wides) (narrow :: narrows)

variable {statements others : List Select} {statement : Select} {wide narrow : List Piece}
  {wider narrower : List Piece} {wides narrows further closer : List (List Piece)}

section Texts

/-- Texts in a row show their characters in a row. -/
@[simp] theorem solidChars_append (first second : String) :
    solidChars (first ++ second) = solidChars first ++ solidChars second := by
  rw [solidChars, String.toList_append, List.filter_append]
  rfl

/-- A line break and the spaces after it show nothing. -/
theorem solidChars_lineText (indent : Nat) : solidChars (Piece.lineText indent) = [] := by
  have newline : isBlank '\n' = true := by decide +kernel
  have space : isBlank ' ' = true := by decide +kernel
  simp [solidChars, Piece.lineText, newline, space]

/-- A separator that is not used does not matter. -/
theorem intercalate_of_short {α : Type} {lists : List (List α)} (short : lists.length < 2)
    (separator other : List α) :
    List.intercalate separator lists = List.intercalate other lists := by
  -- Between fewer than two lists no separator is ever put.
  match lists, short with
  | [], _ => rfl
  | [list], _ => rw [List.intercalate_singleton, List.intercalate_singleton]

end Texts

namespace Widens

/-- Pieces that are printed for no statement are the same in both layouts. -/
theorem plain (pieces : List Piece) : Widens [] pieces pieces :=
  ⟨rfl, nofun, fun _ => rfl⟩

/-- The second layout is never longer than the first. -/
theorem length_le (widens : Widens statements wide narrow) :
    (Piece.concat narrow).length ≤ (Piece.concat wide).length := by
  by_cases broad : ∃ statement ∈ statements, 2 ≤ statement.width
  · obtain ⟨statement, member, several⟩ := broad
    exact Nat.le_of_lt (widens.longer statement member several)
  · -- No statement has projections to separate.
    have slim : ∀ statement ∈ statements, statement.width < 2 := fun statement member =>
      Nat.lt_of_not_le fun several => broad ⟨statement, member, several⟩
    exact Nat.le_of_eq (by rw [widens.same slim])

/-- Parts in a row are wider if one of them is. -/
theorem append (first : Widens statements wide narrow) (second : Widens others wider narrower) :
    Widens (statements ++ others) (wide ++ wider) (narrow ++ narrower) where
  solid := by
    simp only [Piece.concat_append, solidChars_append, first.solid, second.solid]
  -- One of the parts is longer, and the other is no shorter.
  longer statement member broad := by
    have front := first.length_le
    have back := second.length_le
    simp only [Piece.concat_append, String.length_append]
    rcases List.mem_append.1 member with inside | inside
    · have more := first.longer statement inside broad
      omega
    · have more := second.longer statement inside broad
      omega
  same slim := by
    obtain ⟨front, back⟩ := List.forall_mem_append.1 slim
    rw [first.same front, second.same back]

/-- Pieces in front of a part are the same in both layouts. -/
theorem after (widens : Widens statements wide narrow) (front : List Piece) :
    Widens statements (front ++ wide) (front ++ narrow) :=
  (plain front).append widens

/-- Pieces behind a part are the same in both layouts. -/
theorem before (widens : Widens statements wide narrow) (back : List Piece) :
    Widens statements (wide ++ back) (narrow ++ back) := by
  have both := widens.append (plain back)
  rwa [List.append_nil] at both

/-- A part between parentheses is as wide as the part. -/
theorem inParens (widens : Widens statements wide narrow) :
    Widens statements (inParens wide) (SelectSql.inParens narrow) :=
  (widens.after [.mark .openParen]).before [.mark .closeParen]

/-- A statement with nothing to separate makes no difference. -/
theorem cons_of_lt (widens : Widens statements wide narrow) (slim : statement.width < 2) :
    Widens (statement :: statements) wide narrow where
  solid := widens.solid
  longer other member broad := by
    -- The statement in front has too few projections to make anything longer.
    rcases List.mem_cons.1 member with rfl | inside
    · exact absurd broad (Nat.not_le_of_lt slim)
    · exact widens.longer other inside broad
  same all := widens.same (List.forall_mem_cons.1 all).2

end Widens

namespace WidensEach

/-- A list of one part is as wide as the part. -/
theorem single (widens : Widens statements wide narrow) :
    WidensEach statements [wide] [narrow] := by
  have each := cons widens nil
  rwa [List.append_nil] at each

/-- Lists of parts may be put together. -/
theorem append (first : WidensEach statements wides narrows)
    (second : WidensEach others further closer) :
    WidensEach (statements ++ others) (wides ++ further) (narrows ++ closer) := by
  induction first with
  | nil => exact second
  | cons head _ ih =>
    rw [List.append_assoc]
    exact cons head ih

/-- Parts with the same pieces in front of each. -/
theorem after (each : WidensEach statements wides narrows) (front : List Piece) :
    WidensEach statements (wides.map (front ++ ·)) (narrows.map (front ++ ·)) := by
  induction each with
  | nil => exact nil
  | cons first _ ih => exact cons (first.after front) ih

/-- Parts with the same separator between neighbours. -/
theorem intercalate (each : WidensEach statements wides narrows) (separator : List Piece) :
    Widens statements (List.intercalate separator wides)
      (List.intercalate separator narrows) := by
  induction each with
  | nil => exact Widens.plain []
  | cons first rest ih =>
    -- A separator follows a part only if another part comes after it.
    cases rest with
    | nil =>
      rw [List.append_nil, List.intercalate_singleton, List.intercalate_singleton]
      exact first
    | cons second rest =>
      rw [List.intercalate_cons_cons, List.intercalate_cons_cons]
      exact (first.before separator).append ih

/-- Parts with a space after each. -/
theorem spacedOut (each : WidensEach statements wides narrows) :
    Widens statements (wides.flatMap (· ++ [.space])) (narrows.flatMap (· ++ [.space])) := by
  induction each with
  | nil => exact Widens.plain []
  | cons first _ ih =>
    rw [List.flatMap_cons, List.flatMap_cons]
    exact (first.before [.space]).append ih

/-- A part with the words that announce it, if it is there. -/
theorem announced {content other : Option (List Piece)}
    (each : WidensEach statements content.toList other.toList) (words : List Keyword) :
    WidensEach statements (announced words content) (SelectSql.announced words other) := by
  -- A part that is there is announced, and nothing is announced otherwise.
  have shape : ∀ content : Option (List Piece), SelectSql.announced words content =
      content.toList.map (Piece.words words ++ [.space] ++ ·) := by
    intro content
    cases content <;> simp [SelectSql.announced]
  rw [shape, shape]
  exact each.after _

/-- Parts on a line of their own, if there are any. -/
theorem ownLine (each : WidensEach statements wides narrows) (indent : Nat) :
    Widens statements (ownLine indent wides) (SelectSql.ownLine indent narrows) := by
  -- If there are parts they stand in a row after a line break, else there is no line at all.
  have joined := (each.intercalate [.space]).after [.line indent]
  cases each with
  | nil => exact Widens.plain []
  | cons => exact joined

/-- Parts show the same with separators that do, and the longer separator makes them longer. -/
theorem spread {separator other : List Piece} (each : WidensEach statements wides narrows)
    (solid : solidChars (Piece.concat separator) = solidChars (Piece.concat other))
    (longer : (Piece.concat other).length < (Piece.concat separator).length) :
    solidChars (Piece.concat (List.intercalate separator wides)) =
        solidChars (Piece.concat (List.intercalate other narrows)) ∧
      (Piece.concat (List.intercalate other narrows)).length + (wides.length - 1) ≤
        (Piece.concat (List.intercalate separator wides)).length := by
  induction each with
  | nil => exact ⟨rfl, Nat.le_refl _⟩
  | cons first rest ih =>
    -- The first part is no shorter in the first layout, whatever comes after it.
    have front := first.length_le
    cases rest with
    | nil =>
      rw [List.intercalate_singleton, List.intercalate_singleton]
      exact ⟨first.solid, front⟩
    | cons second rest =>
      -- Each separator shows the same and is longer by one character at least.
      obtain ⟨same, more⟩ := ih
      rw [List.intercalate_cons_cons, List.intercalate_cons_cons]
      simp only [Piece.concat_append, solidChars_append, String.length_append, first.solid, solid,
        same, List.length_cons] at more ⊢
      exact ⟨trivial, by omega⟩

/-- Projections on lines of their own take more than on one line, if there are several. -/
theorem projections (each : WidensEach statements wides narrows)
    (width : statement.width = wides.length) (indent : Nat) :
    Widens (statement :: statements)
      (List.intercalate (ProjectionLayout.wrap.separator indent) wides)
      (List.intercalate (ProjectionLayout.inline.separator indent) narrows) := by
  -- A separator is a comma and white space in either layout.
  have solid : solidChars (Piece.concat (ProjectionLayout.wrap.separator indent)) =
      solidChars (Piece.concat (ProjectionLayout.inline.separator indent)) := by
    have space : solidChars " " = [] := by decide +kernel
    simp [ProjectionLayout.separator, commaSpace, Piece.concat_cons, Piece.text,
      solidChars_lineText, space]
  -- A line break and an indentation by a column take more than a single space.
  have longer : (Piece.concat (ProjectionLayout.inline.separator indent)).length <
      (Piece.concat (ProjectionLayout.wrap.separator indent)).length := by
    have space : " ".length = 1 := rfl
    have newline : "\n".length = 1 := rfl
    have column : "SELECT ".length = 7 := rfl
    simp [ProjectionLayout.separator, commaSpace, Piece.concat_cons, Piece.text, Piece.lineText,
      space, newline, column]
  -- There is one separator less than there are projections, and each adds to the length.
  obtain ⟨same, more⟩ := each.spread solid longer
  by_cases broad : 2 ≤ wides.length
  · refine ⟨same, fun _ _ _ => by omega, fun slim => ?_⟩
    have narrow := slim statement List.mem_cons_self
    omega
  · -- Without neighbours there is nothing to separate.
    have slim : statement.width < 2 := by omega
    have short : wides.length < 2 := by omega
    rw [intercalate_of_short short _ (ProjectionLayout.inline.separator indent)]
    exact (each.intercalate _).cons_of_lt slim

end WidensEach

end SelectSql
