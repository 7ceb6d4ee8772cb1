import SelectSql.Proofs.Nested
import SelectSql.Proofs.Restoring.Step

/-!
Writing a node leaves the page at the place where it was, so that each part of a node is begun at a
place that does not depend on the parts before it.
-/

namespace SelectSql

open Step

variable {layout : ProjectionLayout} {place : Place}

section Rows

/-- Nodes in a row are written part by part. -/
theorem writeNodes_eq (separator : List Piece) (nodes : List Node) :
    writeNodes layout separator nodes = performAll layout (parts place separator nodes) := by
  -- The induction is on the nodes, of which the last has no separator after it.
  induction nodes with
  | nil => rfl
  | cons node nodes ih =>
    cases nodes with
    | nil => simp [writeNodes, parts, row, List.intercalate, performAll, perform]
    | cons next nodes =>
      simp only [parts, row, List.map_cons] at ih
      simp [writeNodes, ih, parts, row, List.intercalate_cons_cons, performAll, perform]

/-- Sort keys in a row are written one by one. -/
theorem writeKeys_eq (keys : List SortKey) :
    writeKeys layout keys = performAll layout (row commaSpace (keys.map (·.steps place))) := by
  -- The keys are separated like nodes, and each is written with its modifiers.
  induction keys with
  | nil => rfl
  | cons key keys ih =>
    obtain ⟨node, options⟩ := key
    cases keys with
    | nil =>
      simp [writeKeys, SortKey.write, SortKey.steps, row, List.intercalate, performAll, perform]
    | cons next keys =>
      simp only [row, List.map_cons] at ih
      simp [writeKeys, SortKey.write, SortKey.steps, ih, row, List.intercalate_cons_cons,
        performAll, perform]

/-- Branches are written one by one, each before a space. -/
theorem writeBranches_eq (branches : List Branch) :
    writeBranches layout branches = performAll layout (branches.flatMap (·.steps place)) := by
  -- A branch brings its own space, so there is no last one to be told apart.
  induction branches with
  | nil => rfl
  | cons branch branches ih =>
    obtain ⟨condition, result⟩ := branch
    simp [writeBranches, Branch.write, Branch.steps, ih, performAll, perform, Writing.putAll]

/-- A part of a choice is written after what introduces it and before a space. -/
theorem writePart_eq (introduction : List Piece) (node : Option Node) :
    writePart layout introduction node =
      performAll layout (optionalPart place introduction node) := by
  cases node <;> simp [writePart, optionalPart, performAll, perform, Writing.putAll]

end Rows

/-- From any page at a place, writing is taking steps. -/
def Takes (layout : ProjectionLayout) (place : Place) (writing : Writing Unit)
    (steps : List Step) : Prop :=
  ∀ page : Page, page.place = place → writing.run page = (performAll layout steps).run page

/-- From any page at a place, writing is taking steps that are all taken there. -/
structure Keeps (layout : ProjectionLayout) (place : Place) (writing : Writing Unit)
    (steps : List Step) : Prop where
  /-- Writing is taking the steps. -/
  takes : Takes layout place writing steps
  /-- None of them leaves the place. -/
  level : Level place steps

variable {first second : Writing Unit} {steps others : List Step}

namespace Takes

/-- Writing that is taking steps anywhere is so at a place. -/
theorem of_eq (same : first = performAll layout steps) : Takes layout place first steps :=
  fun _ _ => by rw [same]

/-- A move is one step. -/
theorem moveTo (target : Place) :
    Takes layout place (Writing.moveTo target) [Step.moveTo target] :=
  of_eq (by simp [performAll, perform])

/-- What is written afterwards begins where the steps before it lead. -/
theorem bind (begins : Takes layout place first steps)
    (ends : Takes layout (arrival place steps) second others) :
    Takes layout place (first >>= fun _ => second) (steps ++ others) := by
  rintro page rfl
  rw [performAll_append, StateT.run_bind, StateT.run_bind, begins page rfl]
  -- The second part finds the page where the steps of the first lead.
  exact ends _ (place_performAll steps page)

/-- The place that is asked for is the one where the page is. -/
theorem here {rest : Place → Writing Unit} (ends : Takes layout place (rest place) steps) :
    Takes layout place (Writing.here >>= rest) steps := by
  rintro page rfl
  rw [StateT.run_bind, Writing.run_here]
  exact ends page rfl

end Takes

namespace Keeps

/-- Pieces are put in one step. -/
theorem putAll (pieces : List Piece) :
    Keeps layout place (Writing.putAll pieces) [Step.put pieces] where
  takes := .of_eq (by simp [performAll, perform])
  level := Level.nil.put pieces

/-- A piece is put as a row of one. -/
theorem put (piece : Piece) : Keeps layout place (Writing.put piece) [Step.put [piece]] where
  takes := .of_eq (by simp [performAll, perform, Writing.putAll])
  level := Level.nil.put [piece]

/-- A part is written in one step. -/
theorem part (node : Node) : Keeps layout place (node.write layout) [Step.part place node] where
  takes := .of_eq (by simp [performAll, perform])
  level := Level.nil.part node

/-- Nodes in a row are written part by part. -/
theorem nodes (separator : List Piece) (nodes : List Node) :
    Keeps layout place (writeNodes layout separator nodes) (parts place separator nodes) where
  takes := .of_eq (writeNodes_eq separator nodes)
  level := .parts separator nodes

/-- What is written after steps at one place begins where they did. -/
theorem before (begins : Keeps layout place first steps)
    (ends : Takes layout place second others) :
    Takes layout place (first >>= fun _ => second) (steps ++ others) :=
  -- The steps of the first lead nowhere else.
  begins.takes.bind (by rwa [begins.level.arrival_eq])

/-- Steps that are all taken at one place follow one another. -/
theorem bind (begins : Keeps layout place first steps)
    (ends : Keeps layout place second others) :
    Keeps layout place (first >>= fun _ => second) (steps ++ others) where
  takes := begins.before ends.takes
  level := begins.level.append ends.level

/-- The place that is asked for is the one where the page is. -/
theorem here {rest : Place → Writing Unit} (ends : Keeps layout place (rest place) steps) :
    Keeps layout place (Writing.here >>= rest) steps where
  takes := .here ends.takes
  level := ends.level

/-- What is absent is written in no steps. -/
theorem absent : Keeps layout place (pure ()) [] where
  takes := .of_eq rfl
  level := .nil

/-- A clause begins on a line of its own, with its words. -/
theorem beginClause (words : List Keyword) :
    Keeps layout place (Writing.beginClause words)
      [Step.put (.line place.indent :: Piece.words words ++ [.space])] where
  takes := by
    rintro page rfl
    rw [Writing.run_beginClause]
    simp [performAll, perform]
  level := Level.nil.put _

/-- A clause that holds a node is written in its steps, or in none. -/
theorem clause (words : List Keyword) (content : Option Node) :
    Keeps layout place (writeClause layout words content)
      (Step.clause place words (content.map fun node => [Step.part place node])) := by
  -- An absent clause does not begin, and so puts no line.
  cases content with
  | none => rw [writeClause]; exact absent
  | some node => rw [writeClause]; exact (beginClause words).bind (part node)

/-- A clause that holds nodes is written in its steps, or in none. -/
theorem listClause (words : List Keyword) (content : Option (List Node)) :
    Keeps layout place (writeListClause layout words content)
      (Step.clause place words (content.map (parts place commaSpace))) := by
  cases content with
  | none => rw [writeListClause]; exact absent
  | some items => rw [writeListClause]; exact (beginClause words).bind (nodes commaSpace items)

/-- An ordering is written in the steps of its keys, or in none. -/
theorem order (content : Option (List SortKey)) :
    Keeps layout place (writeOrder layout content)
      (Step.clause place [.order, .by_]
        (content.map fun keys => row commaSpace (keys.map (·.steps place)))) := by
  cases content with
  | none => rw [writeOrder]; exact absent
  | some keys =>
    rw [writeOrder]
    exact (beginClause _).bind ⟨.of_eq (writeKeys_eq keys), level_keys keys⟩

/-- Projections are written after a space, if there are any. -/
theorem projections (separator : List Piece) (content : Option (List Node)) :
    Keeps layout place (writeProjections layout separator content)
      ((content.map fun nodes => Step.put [.space] :: parts place separator nodes).getD []) := by
  cases content with
  | none => rw [writeProjections]; exact absent
  | some items => rw [writeProjections]; exact (put _).bind (nodes separator items)

/-- An offset is written on the line of a limit or on one of its own. -/
theorem offset (shared : Bool) (content : Option Node) :
    Keeps layout place (writeOffset layout shared content)
      ((content.map fun node => [Step.put [if shared then .space else .line place.indent],
        Step.put [.keyword .offset, .space], Step.part place node]).getD []) := by
  cases content with
  | none => rw [writeOffset]; exact absent
  | some node => rw [writeOffset]; exact here ((put _).bind ((putAll _).bind (part node)))

end Keeps

/-- All parts of a node that is not a statement are written where the node itself is. -/
theorem Node.keeps_steps {node : Node} (plain : ∀ statement, node ≠ .select statement) :
    Keeps layout place (node.write layout) (node.steps layout place) := by
  -- Each way of writing a node is a row of puts and parts, and none of them moves.
  cases node with
  | literal text => rw [Node.write]; exact .put _
  | reference table name =>
    cases table with
    | none => rw [Node.write]; exact .put _
    | some table => rw [Node.write]; exact .putAll _
  | call name arguments =>
    rw [Node.write]
    exact (Keeps.putAll _).bind ((Keeps.nodes _ _).bind (.put _))
  | range low high => rw [Node.write]; exact (Keeps.part _).bind ((Keeps.putAll _).bind (.part _))
  | list items =>
    rw [Node.write]
    exact (Keeps.put _).bind ((Keeps.nodes _ _).bind (.put _))
  | case subject branches otherwise =>
    rw [Node.write]
    -- The steps are grouped in the order in which the parts are written.
    simp only [Node.steps, List.append_assoc, List.cons_append]
    refine (Keeps.putAll _).bind ?_
    refine Keeps.bind ⟨.of_eq (writePart_eq _ _), .optionalPart _ _⟩ ?_
    refine Keeps.bind ⟨.of_eq (writeBranches_eq _), level_branches _⟩ ?_
    exact Keeps.bind ⟨.of_eq (writePart_eq _ _), .optionalPart _ _⟩ (.put _)
  | binary left op right negated =>
    rw [Node.write]
    refine (Keeps.part _).bind ?_
    -- Whether the operator begins a line is asked of the place.
    refine .here ?_
    refine (Keeps.put _).bind ?_
    refine (Keeps.putAll _).bind ?_
    refine (Keeps.putAll _).bind ?_
    exact (Keeps.put _).bind (.part _)
  | unary op operand => rw [Node.write]; exact (Keeps.putAll _).bind (.part _)
  | parens inner => rw [Node.write]; exact (Keeps.put _).bind ((Keeps.part _).bind (.put _))
  | aliasAs inner name => rw [Node.write]; exact (Keeps.part _).bind (.putAll _)
  | aliasBare inner name => rw [Node.write]; exact (Keeps.part _).bind (.putAll _)
  | join kind left right condition =>
    rw [Node.write]
    refine (Keeps.part _).bind ?_
    refine .here ?_
    refine (Keeps.put _).bind ?_
    refine (Keeps.putAll _).bind ?_
    refine (Keeps.put _).bind ?_
    exact (Keeps.part _).bind (.clause _ _)
  | subscript value index =>
    rw [Node.write]
    exact (Keeps.part _).bind ((Keeps.put _).bind ((Keeps.part _).bind (.put _)))
  | cast value target =>
    rw [Node.write]
    exact (Keeps.part _).bind ((Keeps.put _).bind (.part _))
  | select statement => exact absurd rfl (plain statement)

/-- A statement is written in its steps. -/
theorem Select.takes_steps (layout : ProjectionLayout) (place : Place) (statement : Select) :
    Takes layout place (statement.write layout) (statement.steps layout place) := by
  obtain ⟨distinct, projections, sources, filter, groupBy, orderBy, limit, offset⟩ := statement
  rw [Select.write]
  -- The steps are grouped in the order in which the parts are written.
  simp only [Select.steps, headSteps, filterSteps, tailSteps, List.append_assoc, List.cons_append,
    List.nil_append]
  refine .here ?_
  refine (Keeps.putAll _).before ?_
  -- The statement moves into its clauses, and all up to the condition is written there.
  refine (Takes.moveTo _).bind ?_
  refine (Keeps.put _).before ?_
  refine (Keeps.putAll _).before ?_
  refine (Keeps.projections _ _).before ?_
  refine (Keeps.listClause _ _).before ?_
  refine (Takes.moveTo _).bind ?_
  refine (Keeps.clause _ _).before ?_
  refine (Takes.moveTo _).bind ?_
  refine (Keeps.listClause _ _).before ?_
  refine (Keeps.order _).before ?_
  refine (Keeps.clause _ _).before ?_
  refine (Keeps.offset _ _).before ?_
  exact (Takes.moveTo _).bind (Keeps.put _).takes

/-- A node is written in its steps. -/
theorem Node.takes_steps (layout : ProjectionLayout) (place : Place) (node : Node) :
    Takes layout place (node.write layout) (node.steps layout place) := by
  cases node with
  | select statement => rw [Node.write]; exact statement.takes_steps layout place
  | _ => exact (Node.keeps_steps (by simp)).takes

/-- Whatever a node is, its parts are to be begun where its moves lead. -/
theorem Node.placed_steps (layout : ProjectionLayout) (place : Place) (node : Node) :
    Placed place (node.steps layout place) := by
  -- Only a statement moves, and its moves lead to its own clauses.
  cases node with
  | select statement => exact statement.placed_steps layout place
  | _ => exact (Node.keeps_steps (by simp)).level.placed

/-- Whatever is put at a position of a statement is written in a step of its own. -/
theorem Position.part_mem (position : Position) (statement : Select) (inner : Node) :
    part ((Frame.clause statement position).place place) inner ∈
      (position.fill statement inner).steps layout place := by
  -- The part is found in the clause in which the position is.
  cases position with
  | projection before after =>
    simp [Frame.place, fill, Select.steps, Select.headSteps, mem_parts]
  | source before after =>
    simp [Frame.place, fill, Select.steps, Select.headSteps, clause, mem_parts]
  | filter => simp [Frame.place, fill, Select.steps, Select.filterSteps, clause]
  | group before after =>
    simp [Frame.place, fill, Select.steps, Select.tailSteps, clause, mem_parts]
  | key before options after =>
    -- A key is a row of its own, in which the part comes first.
    have member : part place.clause inner ∈
        row commaSpace ((before ++ ⟨inner, options⟩ :: after).map (·.steps place.clause)) :=
      mem_row List.mem_cons_self
        (List.mem_map_of_mem (List.mem_append_right before List.mem_cons_self))
    rw [List.map_append, List.map_cons] at member
    simp [Frame.place, fill, Select.steps, Select.tailSteps, clause, member]
  | limit => simp [Frame.place, fill, Select.steps, Select.tailSteps, clause]
  | offset => simp [Frame.place, fill, Select.steps, Select.tailSteps]

/-- Whatever is put in the open part of a frame is written in a step of its own, at the place of
that part. -/
theorem Frame.part_mem (frame : Frame) (inner : Node) :
    part (frame.place place) inner ∈ (frame.fill inner).steps layout place := by
  cases frame with
  | clause statement position => exact position.part_mem statement inner
  -- The other frames leave the place as it is.
  | _ =>
    simp [fill, Frame.place, Node.steps, mem_parts, optionalPart, Step.clause, Branch.steps]

/-- The text that a step adds, parts at the places where they are to be begun. -/
def Step.text (layout : ProjectionLayout) : Step → String
  -- A move shows nothing.
  | put pieces => Piece.concat pieces
  | moveTo _ => ""
  | part place node => node.textAt layout place

/-- Steps add their texts one after another if every part is begun where it is to be. -/
theorem Step.Placed.text_performAll {steps : List Step} (page : Page)
    (placed : Placed page.place steps) :
    ((performAll layout steps).run page).2.text =
      page.text ++ String.join (steps.map (Step.text layout)) := by
  -- The induction is on the steps. What a part adds depends on the place alone, which is the right
  -- one.
  induction steps generalizing page with
  | nil => exact String.append_empty.symm
  | cons step steps ih =>
    rw [performAll, StateT.run_bind, List.map_cons, String.join_cons, ← String.append_assoc]
    cases step with
    | put pieces =>
      rw [perform, Writing.run_putAll]
      exact ih _ placed
    | moveTo place =>
      rw [perform, Writing.run_moveTo, Step.text, String.append_empty]
      exact ih _ placed
    | part place node =>
      obtain ⟨rfl, others⟩ := placed
      rw [perform, Node.run_write, Step.text, Node.textAt_eq]
      exact ih _ others

/-- What writing a node leaves of the page, and where its parts are begun on the way. -/
structure Node.Restores (layout : ProjectionLayout) (node : Node) (page : Page) : Prop where
  /-- The page is left at the place where it was. -/
  place : ((node.write layout).run page).2.place = page.place
  /-- The text that is added depends on that place, and not on the text before it. -/
  text : ((node.write layout).run page).2.text = page.text ++ node.textAt layout page.place
  /-- The node is written in steps that depend on that place alone. -/
  steps : (node.write layout).run page =
    (performAll layout (node.steps layout page.place)).run page
  /-- Whatever is written before a part, the page is then where that part is to be begun. -/
  begun : ∀ before here inner after,
    node.steps layout page.place = before ++ part here inner :: after →
      ((performAll layout before).run page).2.place = here
  /-- So the text is made up of what each part makes at its own place, with pieces in between. -/
  texts : node.textAt layout page.place =
    String.join ((node.steps layout page.place).map (Step.text layout))
  /-- Every part of the node is written in a step of its own. -/
  whole : ∀ (frame : Frame) (inner : Node), frame.fill inner = node →
    part (frame.place page.place) inner ∈ node.steps layout page.place
  /-- The parts of a node other than a statement are all to be begun where the node is. -/
  inside : (∀ statement, node ≠ .select statement) →
    ∀ here inner, part here inner ∈ node.steps layout page.place → here = page.place
  /-- The parts of a statement are to be begun in its clauses, and only its condition in `WHERE`. -/
  clauses : ∀ statement, node = .select statement →
    ∀ here inner, part here inner ∈ node.steps layout page.place →
      here = page.place.clause ∨ here = page.place.filter ∧ statement.filter = some inner

/-- Writing a node leaves the page where it was. So each part of a node is begun at a place that no
part before it can change, and the text of a node depends on nothing but the node, the layout and
its place. -/
theorem write_restores (layout : ProjectionLayout) (node : Node) (page : Page) :
    node.Restores layout page where
  place := by rw [Node.run_write]; rfl
  text := by rw [Node.run_write, Node.textAt_eq]; rfl
  steps := node.takes_steps layout page.place page rfl
  begun before here inner after split := by
    have placed := node.placed_steps layout page.place
    rw [split] at placed
    rw [place_performAll, placed.arrival_eq]
  -- From an empty page the text that is added is all there is.
  texts := by
    have placed := node.placed_steps layout page.place
    rw [Node.textAt, node.takes_steps layout page.place ⟨page.place, ""⟩ rfl]
    exact (Placed.text_performAll ⟨page.place, ""⟩ placed).trans String.empty_append
  whole := by
    rintro frame inner rfl
    exact frame.part_mem inner
  inside plain here inner member := (Node.keeps_steps plain).level _ member
  clauses := by
    rintro statement rfl here inner member
    exact Select.place_of_part_mem member

/-- Within a `WHERE`, what follows a statement in a list is written as it is at that place, although
the statement has a condition of its own. -/
example :
    ((Node.list [.literal "1", .select ⟨false, none, none, some (.literal "2"), none, none, none,
        none⟩, .binary (.literal "3") .or (.literal "4") false]).write .inline |>.run
          ⟨⟨some 4, true⟩, ""⟩).2 =
      ⟨⟨some 4, true⟩, "(1, \n      SELECT\n      WHERE 2\n    , 3\n    OR 4)"⟩ := by
  decide +kernel

end SelectSql
