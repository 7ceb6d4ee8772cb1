import SelectSql.Proofs.Breaking.Spelled

/-!
Where lines break in expressions: before each connective of a `WHERE`, at any depth, and nowhere
else. In every other position an expression is printed on one line, as it is on its own.
-/

namespace SelectSql

section Counting

/-- The number of line breaks in a text. -/
def breaks (text : String) : Nat :=
  -- No other character ends a line.
  text.toList.count '\n'

/-- The number of lines that a text takes. -/
def lineCount (text : String) : Nat :=
  -- A text without breaks takes one line.
  breaks text + 1

variable {gap : String}

/-- Texts in a row have the breaks of both. -/
theorem breaks_append (first second : String) :
    breaks (first ++ second) = breaks first + breaks second := by
  rw [breaks, String.toList_append, List.count_append]
  rfl

/-- A text in which no line breaks has no breaks. -/
theorem breaks_eq_zero {text : String} : breaks text = 0 ↔ '\n' ∉ text.toList :=
  List.count_eq_zero

/-- Texts with a separator on one line between them break as often as they do without it. -/
theorem breaks_intercalate {separator : String} (flat : breaks separator = 0)
    (texts : List String) : breaks (separator.intercalate texts) = breaks (String.join texts) := by
  induction texts with
  | nil => rw [String.intercalate_nil, String.join_nil]
  | cons first texts ih =>
    cases texts with
    | nil => simp [String.intercalate_singleton, String.join_cons]
    | cons next texts =>
      rw [String.intercalate_cons_cons, String.join_cons, breaks_append, breaks_append, flat, ih,
        breaks_append, Nat.add_zero]

/-- The spelling of an operator stands on one line. -/
theorem BinaryOp.breaks_text (op : BinaryOp) : breaks op.text = 0 := by
  cases op <;> decide +kernel

/-- The spelling of a prefix operator stands on one line. -/
theorem UnaryOp.breaks_text (op : UnaryOp) : breaks op.text = 0 := by
  cases op <;> decide +kernel

/-- A node breaks as often as the gap does before each of its connectives, unless texts of it
do. -/
private def Counts (gap : String) (node : Node) : Prop :=
  -- Joins and statements begin lines of their own.
  node.InLine → (∀ text ∈ node.texts, breaks text = 0) →
    breaks (node.spelled gap) = node.connectives * breaks gap

/-- The connectives of a node that is none itself are those of its parts. -/
private theorem connectives_of_not {node : Node} {parts : List Node}
    (split : node.within = node :: parts) (other : node.isConnection = false) :
    node.connectives = parts.countP Node.isConnection := by
  rw [Node.connectives, split, List.countP_cons_of_neg]
  simp [other]

/-- Nodes in a row break as often as the gap does before each of their connectives. -/
private theorem breaks_nodes {nodes : List Node} (each : ∀ node ∈ nodes, Counts gap node)
    (plain : ∀ part ∈ nodesWithin nodes, part.beginsLines = false)
    (flat : ∀ text ∈ nodeTexts nodes, breaks text = 0) :
    breaks (String.join (nodesSpelled gap nodes)) =
      (nodesWithin nodes).countP Node.isConnection * breaks gap := by
  induction nodes with
  | nil => simp [nodesSpelled, nodesWithin, breaks]
  | cons node nodes ih =>
    obtain ⟨first, others⟩ := List.forall_mem_cons.1 each
    obtain ⟨inside, beyond⟩ := List.forall_mem_append.1 plain
    obtain ⟨here, there⟩ := List.forall_mem_append.1 flat
    rw [nodesSpelled, String.join_cons, breaks_append, first inside here, ih others beyond there,
      nodesWithin, List.countP_append, Nat.add_mul, Node.connectives]

/-- A part of a choice breaks as often as the gap does before each of its connectives. -/
private theorem breaks_option {option : Option Node} (word : String)
    (each : ∀ node ∈ option, Counts gap node)
    (plain : ∀ part ∈ optionWithin option, part.beginsLines = false)
    (flat : ∀ text ∈ optionTexts option, breaks text = 0) (one : breaks word = 0) :
    breaks (optionSpelled gap word option) =
      (optionWithin option).countP Node.isConnection * breaks gap := by
  cases option with
  | none => simp [optionSpelled, optionWithin, breaks]
  | some node =>
    have space : breaks " " = 0 := rfl
    rw [optionSpelled, breaks_append, breaks_append, one, space, each node rfl plain flat,
      Node.connectives, optionWithin]
    omega

/-- Branches break as often as the gap does before each of their connectives. -/
private theorem breaks_branches {branches : List Branch}
    (each : ∀ branch ∈ branches, Counts gap branch.condition ∧ Counts gap branch.result)
    (plain : ∀ part ∈ branchesWithin branches, part.beginsLines = false)
    (flat : ∀ text ∈ branchTexts branches, breaks text = 0) :
    breaks (branchesSpelled gap branches) =
      (branchesWithin branches).countP Node.isConnection * breaks gap := by
  have first : breaks "WHEN " = 0 := rfl
  have second : breaks " THEN " = 0 := rfl
  have space : breaks " " = 0 := rfl
  induction branches with
  | nil => simp [branchesSpelled, branchesWithin, breaks]
  | cons branch branches ih =>
    obtain ⟨⟨tested, taken⟩, others⟩ := List.forall_mem_cons.1 each
    obtain ⟨inside, beyond⟩ := List.forall_mem_append.1 plain
    obtain ⟨here, there⟩ := List.forall_mem_append.1 flat
    obtain ⟨condition, result⟩ := branch
    obtain ⟨before, after⟩ := List.forall_mem_append.1 inside
    obtain ⟨upper, lower⟩ := List.forall_mem_append.1 here
    -- No word of a branch breaks a line, so its two nodes are all that counts.
    rw [branchesSpelled, Branch.spelled, branchesWithin, Branch.within]
    simp only [breaks_append, List.countP_append, Nat.add_mul, first, second, space,
      tested before upper, taken after lower, ih others beyond there, Node.connectives]
    omega

/-- Expressions break before their connectives only, by induction over the tree. -/
private theorem counts_trees (gap : String) :
    TreeInduction (Counts gap) fun _ => True where
  literal text _ flat := by
    have here := flat text (List.mem_singleton_self text)
    rw [Node.spelled, here]
    exact (Nat.zero_mul _).symm
  reference table name _ flat := by
    -- A name is no connection and holds no line break.
    have nothing : (Node.reference table name).connectives = 0 := rfl
    rw [nothing, Nat.zero_mul]
    cases table with
    | none => exact flat name (List.mem_singleton_self name)
    | some table =>
      obtain ⟨first, second⟩ := List.forall_mem_cons.1 flat
      rw [Node.spelled, breaks_append, breaks_append, first,
        second name (List.mem_singleton_self name)]
      rfl
  call name arguments each plain flat := by
    obtain ⟨called, inside⟩ := List.forall_mem_cons.1 flat
    have counted := breaks_nodes each (List.forall_mem_cons.1 plain).2 inside
    rw [Node.spelled, connectives_of_not rfl rfl, breaks_append, breaks_append, breaks_append,
      breaks_intercalate rfl, called, counted]
    exact Nat.zero_add _
  range low high lowCounts highCounts plain flat := by
    obtain ⟨below, above⟩ := List.forall_mem_append.1 (List.forall_mem_cons.1 plain).2
    obtain ⟨first, second⟩ := List.forall_mem_append.1 flat
    rw [Node.spelled, connectives_of_not rfl rfl, breaks_append, breaks_append,
      lowCounts below first, highCounts above second, List.countP_append, Nat.add_mul]
    rfl
  list items each plain flat := by
    have counted := breaks_nodes each (List.forall_mem_cons.1 plain).2 flat
    rw [Node.spelled, connectives_of_not rfl rfl, breaks_append, breaks_append,
      breaks_intercalate rfl, counted]
    exact Nat.zero_add _
  case subject branches otherwise subjectCounts branchesCount otherwiseCounts plain flat := by
    obtain ⟨parts, last⟩ := List.forall_mem_append.1 (List.forall_mem_cons.1 plain).2
    obtain ⟨first, middle⟩ := List.forall_mem_append.1 parts
    obtain ⟨texts, lastTexts⟩ := List.forall_mem_append.1 flat
    obtain ⟨firstTexts, middleTexts⟩ := List.forall_mem_append.1 texts
    -- The words of a choice break no line, and its parts are counted one after the other.
    have chooser := breaks_option "" subjectCounts first firstTexts rfl
    have tested := breaks_branches branchesCount middle middleTexts
    have fallback := breaks_option "ELSE " otherwiseCounts last lastTexts rfl
    have opening : breaks "CASE " = 0 := rfl
    have closing : breaks "END" = 0 := rfl
    rw [Node.spelled, connectives_of_not rfl rfl]
    simp only [breaks_append, opening, closing, chooser, tested, fallback, List.countP_append,
      Nat.add_mul]
    omega
  binary left op right negated leftCounts rightCounts plain flat := by
    obtain ⟨before, after⟩ := List.forall_mem_append.1 (List.forall_mem_cons.1 plain).2
    obtain ⟨first, second⟩ := List.forall_mem_append.1 flat
    have space : breaks " " = 0 := rfl
    have negation : breaks (if negated then "NOT " else "") = 0 := by cases negated <;> rfl
    have whole : (Node.binary left op right negated).connectives =
        left.connectives + right.connectives + if op.isConnective then 1 else 0 := by
      rw [Node.connectives, Node.within, List.countP_cons, List.countP_append]
      rfl
    rw [Node.spelled, whole]
    simp only [breaks_append, leftCounts before first, rightCounts after second, op.breaks_text,
      negation, space, Nat.add_mul]
    -- The gap stands before a connective, which counts itself once more than its operands do.
    cases op.isConnective with
    | false => simp only [Bool.false_eq_true, if_false, space]; omega
    | true => simp only [if_true]; omega
  unary op operand operandCounts plain flat := by
    have sign : breaks (if op.isWord then " " else "") = 0 := by cases op <;> rfl
    rw [Node.spelled, connectives_of_not rfl rfl, breaks_append, breaks_append, op.breaks_text,
      sign, operandCounts (List.forall_mem_cons.1 plain).2 flat]
    exact Nat.zero_add _
  parens inner innerCounts plain flat := by
    rw [Node.spelled, connectives_of_not rfl rfl, breaks_append, breaks_append,
      innerCounts (List.forall_mem_cons.1 plain).2 flat]
    exact Nat.zero_add _
  aliasAs inner name innerCounts plain flat := by
    obtain ⟨texts, named⟩ := List.forall_mem_append.1 flat
    rw [Node.spelled, connectives_of_not rfl rfl, breaks_append, breaks_append,
      innerCounts (List.forall_mem_cons.1 plain).2 texts, named name (List.mem_singleton_self name)]
    rfl
  aliasBare inner name innerCounts plain flat := by
    obtain ⟨texts, named⟩ := List.forall_mem_append.1 flat
    rw [Node.spelled, connectives_of_not rfl rfl, breaks_append, breaks_append,
      innerCounts (List.forall_mem_cons.1 plain).2 texts, named name (List.mem_singleton_self name)]
    rfl
  join kind left right condition _ _ _ plain _ := by
    -- A join begins lines, which the node must not.
    have begins := (List.forall_mem_cons.1 plain).1
    cases begins
  subscript value index valueCounts indexCounts plain flat := by
    obtain ⟨before, after⟩ := List.forall_mem_append.1 (List.forall_mem_cons.1 plain).2
    obtain ⟨first, second⟩ := List.forall_mem_append.1 flat
    rw [Node.spelled, connectives_of_not rfl rfl, breaks_append, breaks_append, breaks_append,
      valueCounts before first, indexCounts after second, List.countP_append, Nat.add_mul]
    rfl
  cast value target valueCounts targetCounts plain flat := by
    obtain ⟨before, after⟩ := List.forall_mem_append.1 (List.forall_mem_cons.1 plain).2
    obtain ⟨first, second⟩ := List.forall_mem_append.1 flat
    rw [Node.spelled, connectives_of_not rfl rfl, breaks_append, breaks_append,
      valueCounts before first, targetCounts after second, List.countP_append, Nat.add_mul]
    rfl
  select statement _ plain _ := by
    have begins := (List.forall_mem_cons.1 plain).1
    cases begins
  statement := fun _ _ _ _ _ _ _ _ _ _ _ _ _ _ _ => trivial

/-- An expression breaks before its connectives only, as often as the gap does. -/
theorem Node.breaks_spelled {node : Node} (plain : node.InLine)
    (unbroken : ∀ text ∈ node.texts, '\n' ∉ text.toList) (gap : String) :
    breaks (node.spelled gap) = node.connectives * breaks gap :=
  (counts_trees gap).node node plain fun text member => breaks_eq_zero.2 (unbroken text member)

end Counting

section Positions

/-- Whether a position is the `WHERE` of a statement. -/
def Position.isFilter : Position → Bool
  | .filter => true
  | _ => false

/-- The position at which a frame is open, if it is that of a statement. -/
def Frame.position? : Frame → Option Position
  -- Every other frame leaves its part in the clause in which it stands itself.
  | .clause _ position => some position
  | _ => none

namespace Surroundings

/-- Where the open node stands in the innermost statement around it, if there is any. -/
def innermost (around : Surroundings) : Option Position :=
  -- The frames go inwards, so the innermost statement comes last.
  (around.filterMap Frame.position?).getLast?

/-- Whether the open node stands in the `WHERE` of the innermost statement around it. -/
def inFilter (around : Surroundings) : Bool :=
  -- Neither the clauses of statements further out nor those of statements inside it count.
  around.innermost.any Position.isFilter

/-- The place of the open node is in a `WHERE` as the innermost statement around it says, or as the
place of the whole tree is if there is no statement around it. -/
theorem inFilter_place (around : Surroundings) (outer : Place) :
    (around.place outer).inFilter =
      (around.innermost.map Position.isFilter).getD outer.inFilter := by
  -- A frame decides over the place only where no frame further inwards does.
  induction around generalizing outer with
  | nil => rfl
  | cons frame frames ih =>
    rw [place, ih, innermost, innermost, List.filterMap_cons]
    cases frame with
    | clause statement position =>
      rw [Frame.position?, List.getLast?_cons, Option.map_some, Option.getD_some]
      cases (frames.filterMap Frame.position?).getLast? with
      | none => cases position <;> rfl
      | some inner => rfl
    | _ => rfl

/-- In a tree on its own the open node is printed as one in a `WHERE` where the innermost statement
around it has it there. -/
theorem inFilter_place_top (around : Surroundings) :
    (around.place .top).inFilter = around.inFilter := by
  rw [inFilter_place, inFilter]
  cases around.innermost <;> rfl

/-- Lines within a statement are indented by two for each further statement around them. -/
theorem indent_place (around : Surroundings) :
    (around.place .top).indent = 2 * (around.depth - 1) := by
  have nested := around.nested_place .top
  have margin : Place.top.nested = 0 := rfl
  rw [margin, Nat.zero_add] at nested
  -- The outermost statement stands at the margin, as does what has no statement around it.
  rw [Place.indent]
  rw [Place.nested] at nested
  cases enclosing : (around.place .top).enclosing with
  | none =>
    rw [enclosing] at nested
    simp only [Option.getD_none] at nested ⊢
    omega
  | some outer =>
    rw [enclosing] at nested
    simp only [Option.getD_some] at nested ⊢
    omega

/-- Before a connective stands a line break with the spaces of the statement in a `WHERE`, and a
space elsewhere. -/
theorem gap_place (around : Surroundings) : (around.place .top).gap =
    if around.inFilter then "\n" ++ spaces (2 * (around.depth - 1)) else " " := by
  rw [Place.gap, around.inFilter_place_top, around.indent_place]

end Surroundings

/-- In a `WHERE` a line breaks before each connective, and nowhere else. -/
theorem Place.breaks_gap (place : Place) : breaks place.gap = if place.inFilter then 1 else 0 := by
  unfold gap
  cases place.inFilter with
  | false => exact (rfl : breaks " " = 0)
  | true =>
    -- The spaces after the break stand on the line that it begins.
    show breaks ("\n" ++ spaces place.indent) = 1
    rw [breaks_append, breaks_eq_zero.2 (newline_notMem_spaces place.indent)]
    rfl

/-- An expression takes one line more for each of its connectives in a `WHERE`, and else one. -/
theorem Node.lineCount_spelled {node : Node} (plain : node.InLine)
    (unbroken : ∀ text ∈ node.texts, '\n' ∉ text.toList) (place : Place) :
    lineCount (node.spelled place.gap) =
      if place.inFilter then 1 + node.connectives else 1 := by
  rw [lineCount, node.breaks_spelled plain unbroken, place.breaks_gap]
  cases place.inFilter with
  | false => exact congrArg (· + 1) (Nat.mul_zero _)
  | true => exact (congrArg (· + 1) (Nat.mul_one _)).trans (Nat.add_comm _ _)

end Positions

/-- An expression on its own is printed on one line, and so it is inside statements, except that in
the `WHERE` of the innermost statement around it a line begins at each of its connectives, however
deep they are in it, with the indentation of that statement. -/
theorem format_connectives (layout : ProjectionLayout) (around : Surroundings) :
    ∃ before after : String, ∀ node : Node, node.InLine →
      (∀ text ∈ node.texts, '\n' ∉ text.toList) →
      let shown := if around.inFilter then node.spelled ("\n" ++ spaces (2 * (around.depth - 1)))
        else node.format ⟨layout⟩
      node.format ⟨layout⟩ = node.spelled " " ∧ lineCount (node.format ⟨layout⟩) = 1 ∧
        lineCount shown = (if around.inFilter then 1 + node.connectives else 1) ∧
        node.textAt layout (around.place .top) = shown ∧
        (around.fill node).format ⟨layout⟩ = before ++ shown ++ after := by
  obtain ⟨before, after, same⟩ := around.surrounds layout .top
  refine ⟨Piece.concat before, Piece.concat after, fun node plain unbroken => ?_⟩
  have alone : node.format ⟨layout⟩ = node.spelled " " := by
    rw [Node.format_eq, node.concat_pieces plain]
    rfl
  -- Both ways of printing it are the spelling with the gap of its place.
  have gap : (if around.inFilter then node.spelled ("\n" ++ spaces (2 * (around.depth - 1)))
      else node.format ⟨layout⟩) = node.spelled (around.place .top).gap := by
    rw [around.gap_place, alone]
    split <;> rfl
  have whole : (around.fill node).pieces layout .top =
      before ++ node.pieces layout (around.place .top) ++ after := same node
  intro shown
  rw [show shown = node.spelled (around.place .top).gap from gap]
  refine ⟨alone, ?_, ?_, ?_, ?_⟩
  · rw [alone]
    exact node.lineCount_spelled plain unbroken .top
  · rw [node.lineCount_spelled plain unbroken, around.inFilter_place_top]
  · rw [Node.textAt_eq, node.concat_pieces plain]
  · rw [Node.format_eq, whole, Piece.concat_append, Piece.concat_append, node.concat_pieces plain]

/-- A condition in the `WHERE` of a statement inside another, with a range and with connectives in
parentheses and in an argument. -/
theorem format_connectives_nested :
    let x : Node := .reference none "x"
    let y : Node := .reference none "y"
    let node : Node := .binary (.binary x .between (.range (.literal "1") (.literal "2")) true) .and
      (.parens (.binary x .or (.call "f" [.binary x .and y true]) false)) false
    let statement : Select :=
      ⟨false, some [.literal "*"], some [.literal "t"], some y, none, none, none, none⟩
    let around : Surroundings := [.clause statement (.source [] []), .aliasBare "s", .parens,
      .clause statement .filter]
    node.InLine ∧ (∀ text ∈ node.texts, '\n' ∉ text.toList) ∧
      node.format ⟨.wrap⟩ = "x NOT BETWEEN 1 AND 2 AND (x OR f(x NOT AND y))" ∧
      node.textAt .wrap (around.place .top) =
        "x NOT BETWEEN 1 AND 2\n  AND (x\n  OR f(x\n  NOT AND y))" ∧
      lineCount (node.textAt .wrap (around.place .top)) = 4 := by
  intro x y node statement around
  have plain : node.InLine := by unfold Node.InLine; decide +kernel
  have unbroken : ∀ text ∈ node.texts, '\n' ∉ text.toList := by decide +kernel
  obtain ⟨before, after, each⟩ := format_connectives .wrap around
  obtain ⟨alone, _, lines, there, _⟩ := each node plain unbroken
  have inside : around.inFilter = true := by decide +kernel
  have spelled : node.spelled " " = "x NOT BETWEEN 1 AND 2 AND (x OR f(x NOT AND y))" := by
    decide +kernel
  have broken : node.spelled ("\n" ++ spaces (2 * (around.depth - 1))) =
      "x NOT BETWEEN 1 AND 2\n  AND (x\n  OR f(x\n  NOT AND y))" := by decide +kernel
  have count : node.connectives = 3 := by decide +kernel
  simp only [inside, if_true, broken, count] at lines there
  exact ⟨plain, unbroken, alone.trans spelled, there, there ▸ lines⟩

end SelectSql
