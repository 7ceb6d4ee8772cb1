import SelectSql.Proofs.Nesting.Frame
import SelectSql.Proofs.Nesting.Shift

/-!
Statements inside others. Wherever a statement stands, it is printed as it is on its own, with every
line further to the right by the same number of spaces.
-/

namespace SelectSql

variable {pieces : List Piece}

section Lines

/-- Spaces in a row. -/
def spaces (count : Nat) : String :=
  String.ofList (List.replicate count ' ')

/-- Lines as a block in a text of a given indentation: they stand two further to the right, and the
text goes on below them. -/
def block (indent : Nat) (lines : List String) : String :=
  -- The block begins by ending the line on which the text around it was.
  "\n" ++ String.join (lines.map fun line => spaces (indent + 2) ++ line ++ "\n") ++ spaces indent

/-- A line break that leads further to the right has more spaces after it. -/
theorem Piece.lineText_add (indent extra : Nat) :
    lineText (indent + extra) = lineText extra ++ spaces indent := by
  rw [Nat.add_comm, lineText, lineText, spaces, ← String.ofList_append, List.cons_append,
    List.replicate_append_replicate]

/-- No line breaks within spaces. -/
theorem newline_notMem_spaces (count : Nat) : '\n' ∉ (spaces count).toList := by
  rw [spaces, String.toList_ofList]
  intro member
  cases List.eq_of_mem_replicate member

/-- No line breaks within a symbol. -/
theorem Terminal.newline_notMem_text (terminal : Terminal) : '\n' ∉ terminal.text.toList := by
  cases terminal with
  | keyword word =>
    have all : ∀ word ∈ Keyword.all, '\n' ∉ word.capitals.toList := by decide +kernel
    exact all word word.mem_all
  | mark sign => cases sign <;> decide

/-- Pieces that print the same lines at every distance to the right. -/
def Lined (pieces : List Piece) : Prop :=
  ∃ first rest, (∀ line ∈ first :: rest, '\n' ∉ line.toList) ∧ ∀ extra,
    Piece.concat (shifted extra pieces) =
      first ++ String.join (rest.map (Piece.lineText extra ++ ·))

/-- A text in front begins the first line. -/
theorem Lined.text {piece : Piece} {text : String} (lined : Lined pieces)
    (unbroken : '\n' ∉ text.toList) (stays : ∀ extra, (piece.shift extra).text = text) :
    Lined (piece :: pieces) := by
  obtain ⟨first, rest, clean, printed⟩ := lined
  refine ⟨text ++ first, rest, ?_, fun extra => ?_⟩
  · obtain ⟨begins, others⟩ := List.forall_mem_cons.1 clean
    refine List.forall_mem_cons.2 ⟨?_, others⟩
    rw [String.toList_append, List.mem_append]
    exact not_or.2 ⟨unbroken, begins⟩
  · rw [shifted_cons, Piece.concat_cons, stays, printed, String.append_assoc]

/-- A line break in front ends a line with nothing on it, and its spaces begin the one below. -/
theorem Lined.line {piece : Piece} {indent : Nat} (lined : Lined pieces)
    (breaks : ∀ extra, (piece.shift extra).text = Piece.lineText (indent + extra)) :
    Lined (piece :: pieces) := by
  obtain ⟨first, rest, clean, printed⟩ := lined
  refine ⟨"", (spaces indent ++ first) :: rest, ?_, fun extra => ?_⟩
  · obtain ⟨begins, others⟩ := List.forall_mem_cons.1 clean
    refine List.forall_mem_cons.2 ⟨by decide, List.forall_mem_cons.2 ⟨?_, others⟩⟩
    rw [String.toList_append, List.mem_append]
    exact not_or.2 ⟨newline_notMem_spaces indent, begins⟩
  · rw [shifted_cons, Piece.concat_cons, breaks, printed, Piece.lineText_add, List.map_cons,
      String.join_cons, String.empty_append]
    simp only [String.append_assoc]

/-- Pieces print the same lines at every distance to the right, unless a text from the tree breaks
a line. -/
theorem lined_of_unbroken (unbroken : ∀ text ∈ shownTexts pieces, '\n' ∉ text.toList) :
    Lined pieces := by
  -- The lines are put together from the last piece to the first.
  induction pieces with
  | nil => exact ⟨"", [], by decide, fun _ => rfl⟩
  | cons piece pieces ih =>
    rw [shownTexts_cons] at unbroken
    have lined := ih fun text member => unbroken text (List.mem_append_right _ member)
    cases piece with
    | symbol terminal => exact lined.text terminal.newline_notMem_text fun _ => rfl
    | verbatim text => exact lined.text (unbroken text (List.mem_cons_self ..)) fun _ => rfl
    | space => exact lined.text (by decide) fun _ => rfl
    | line indent => exact lined.line fun _ => rfl
    | joint indent =>
      cases indent with
      | none => exact lined.text (by decide) fun _ => rfl
      | some indent => exact lined.line fun _ => rfl

/-- What stands before each of several lines and after the last stands before the first and after
each of them. -/
theorem join_rotate (text : String) (lines : List String) :
    String.join (lines.map (text ++ ·)) ++ text = text ++ String.join (lines.map (· ++ text)) := by
  -- The text after the last line is moved in front of it, past one line after another.
  induction lines with
  | nil => simp
  | cons line lines ih => simp only [List.map_cons, String.join_cons, String.append_assoc, ih]

/-- A line break is followed by its spaces. -/
theorem Piece.lineText_eq (indent : Nat) : lineText indent = "\n" ++ spaces indent := by
  rw [spaces, ← String.ofList_append]
  rfl

/-- Lines with a break before each and one after the last make a block. -/
theorem join_lineText (indent : Nat) (lines : List String) :
    String.join (lines.map (Piece.lineText (indent + 2) ++ ·)) ++ Piece.lineText indent =
      block indent lines := by
  calc String.join (lines.map (Piece.lineText (indent + 2) ++ ·)) ++ Piece.lineText indent
      = String.join ((lines.map (spaces (indent + 2) ++ ·)).map ("\n" ++ ·)) ++ "\n" ++
          spaces indent := by
        simp only [Piece.lineText_eq, List.map_map, Function.comp_def, String.append_assoc]
    _ = "\n" ++ String.join ((lines.map (spaces (indent + 2) ++ ·)).map (· ++ "\n")) ++
          spaces indent := by rw [join_rotate]
    _ = block indent lines := by
        rw [List.map_map]
        rfl

end Lines

section Statements

/-- A statement stands two further to the right than the one around it. -/
theorem Place.enclosing_of_nested {place : Place} {indent : Nat}
    (nested : place.nested = indent + 2) : place.enclosing = some indent := by
  obtain ⟨enclosing, inFilter⟩ := place
  cases enclosing with
  | none => cases nested
  | some outer => exact congrArg some (Nat.add_right_cancel nested)

/-- The text of a node that is printed at a place. -/
def Node.textAt (layout : ProjectionLayout) (node : Node) (place : Place) : String :=
  -- Nothing has been written before it, so nothing else is on the page.
  ((node.write layout).run ⟨place, ""⟩).2.text

variable {layout : ProjectionLayout} {statement : Select}

/-- The text of a node is that of its printed form. -/
theorem Node.textAt_eq (node : Node) (place : Place) :
    node.textAt layout place = Piece.concat (node.pieces layout place) := by
  rw [Node.textAt, Node.run_write]
  exact String.empty_append

/-- The clauses of a statement print the same lines at every distance to the right. -/
theorem Select.lined_clauses (unbroken : ∀ text ∈ statement.texts, '\n' ∉ text.toList) :
    Lined (statement.clauses layout 0) := by
  -- The clauses show every text of the statement, and the line breaks around them show none.
  apply lined_of_unbroken
  have shown := statement.shownTexts_pieces layout .top
  rw [statement.pieces_eq_clauses] at shown
  have same : shownTexts (statement.clauses layout 0) = statement.texts := by
    simpa [Place.top, Place.nested] using shown
  rwa [same]

/-- On its own and inside others a statement is printed in the same lines, as a block of them in a
statement around it. -/
theorem Select.exists_lines (layout : ProjectionLayout)
    (unbroken : ∀ text ∈ statement.texts, '\n' ∉ text.toList) :
    ∃ lines : List String, (∀ line ∈ lines, '\n' ∉ line.toList) ∧
      statement.format ⟨layout⟩ = String.join (lines.map (· ++ "\n")) ∧
      ∀ place indent, place.enclosing = some indent →
        Piece.concat (statement.pieces layout place) = block indent lines := by
  obtain ⟨first, rest, clean, printed⟩ := @lined_clauses layout statement unbroken
  refine ⟨first :: rest, clean, ?_, fun place indent enclosed => ?_⟩
  · -- On its own it begins at the margin, with no break before it and one after it.
    have alone := printed 0
    rw [shifted_zero] at alone
    rw [Select.format_eq, pieces_eq_clauses]
    simp only [Place.top, Place.nested, Place.indent, Option.isSome_none, Bool.false_eq_true,
      if_false, Option.getD_none, List.nil_append]
    rw [Piece.concat_append, Piece.concat_singleton, alone, String.append_assoc, List.map_cons,
      String.join_cons, String.append_assoc]
    exact congrArg (first ++ ·) (join_rotate "\n" rest)
  · -- Inside another a break stands before it as well, and each of its lines has as many spaces.
    have deeper := statement.clauses_shift layout 0 (indent + 2)
    rw [Nat.zero_add] at deeper
    rw [pieces_eq_clauses, ← join_lineText]
    simp only [Place.nested, Place.indent, enclosed, Option.isSome_some, if_true, Option.getD_some]
    rw [Piece.concat_append, Piece.concat_append, Piece.concat_singleton, Piece.concat_singleton,
      deeper, printed, List.map_cons, String.join_cons]
    simp only [Piece.text, String.append_assoc]

end Statements

/-- A statement inside others is printed as on its own, each line two further to the right than
the statement that it is a part of, and what is around it is printed as it is around any other. -/
theorem format_nested (layout : ProjectionLayout) (around : Surroundings) {outer : Nat}
    (inside : around.depth = outer + 1) :
    ∃ before after : String, ∀ statement : Select,
      (∀ text ∈ statement.texts, '\n' ∉ text.toList) →
      ∃ lines : List String, (∀ line ∈ lines, '\n' ∉ line.toList) ∧
        statement.format ⟨layout⟩ = String.join (lines.map (· ++ "\n")) ∧
        (Node.select statement).textAt layout (around.place .top) = block (2 * outer) lines ∧
        (around.fill (.select statement)).format ⟨layout⟩ =
          before ++ block (2 * outer) lines ++ after := by
  obtain ⟨before, after, same⟩ := around.surrounds layout .top
  refine ⟨Piece.concat before, Piece.concat after, fun statement unbroken => ?_⟩
  obtain ⟨lines, clean, alone, deeper⟩ := Select.exists_lines layout unbroken
  -- Each statement around it has added two to the indentation.
  have enclosed : (around.place .top).enclosing = some (2 * outer) := by
    apply Place.enclosing_of_nested
    rw [around.nested_place, inside]
    exact Nat.zero_add (2 * (outer + 1))
  have text := deeper _ _ enclosed
  have whole : (around.fill (.select statement)).pieces layout .top =
      before ++ statement.pieces layout (around.place .top) ++ after := same (.select statement)
  refine ⟨lines, clean, alone, ?_, ?_⟩
  · rw [Node.textAt_eq]
    exact text
  · rw [Node.format_eq, whole, Piece.concat_append, Piece.concat_append, text]

/-- A statement in two others, once in `WHERE` and once in `FROM`. -/
theorem format_nested_twice :
    let statement : Select := ⟨false, some [.literal "*"], some [.reference none "t"],
      some (.binary (.reference none "x") .or (.reference none "y") false), none, none, none, none⟩
    let outer : Select := ⟨false, some [.literal "*"], none, none, none, none, none, none⟩
    let around : Surroundings := [.clause outer (.source [] []), .aliasBare "s", .parens,
      .clause statement .filter, .operand .not, .parens]
    around.depth = 1 + 1 ∧ (∀ text ∈ statement.texts, '\n' ∉ text.toList) ∧
      ∃ before after lines, statement.format ⟨.wrap⟩ = String.join (lines.map (· ++ "\n")) ∧
        (Node.select statement).textAt .wrap (around.place .top) = block 2 lines ∧
        (around.fill (.select statement)).format ⟨.wrap⟩ = before ++ block 2 lines ++ after := by
  intro statement outer around
  have inside : around.depth = 1 + 1 := rfl
  have unbroken : ∀ text ∈ statement.texts, '\n' ∉ text.toList := by decide +kernel
  obtain ⟨before, after, each⟩ := format_nested .wrap around inside
  obtain ⟨lines, _, alone, nested, whole⟩ := each statement unbroken
  exact ⟨inside, unbroken, before, after, lines, alone, nested, whole⟩

example :
    (Node.select ⟨false, some [.literal "*", .literal "1"], some [.reference none "t"],
        some (.binary (.reference none "x") .or (.reference none "y") false), none, none, none,
        none⟩).textAt .wrap ⟨some 2, false⟩ =
      "\n    SELECT *,\n           1\n    FROM t\n    WHERE x\n    OR y\n  " := by
  decide +kernel

end SelectSql
