import SelectSql.Layout.WriterLaws

/-!
Writing a node, step by step. A step puts pieces, moves to another place or writes a part of the
node; only the moves change where the next step is taken.
-/

namespace SelectSql

/-- A step in writing a node. -/
inductive Step where
  /-- Pieces are put. -/
  | put (pieces : List Piece)
  /-- Writing goes on at another place. -/
  | moveTo (place : Place)
  /-- A part of the node is written, which is to be begun at a place. -/
  | part (place : Place) (node : Node)

namespace Step

/-- Takes a step. A part is begun wherever the steps before it have led. -/
def perform (layout : ProjectionLayout) : Step → Writing Unit
  | put pieces => Writing.putAll pieces
  | moveTo place => Writing.moveTo place
  | part _ node => node.write layout

/-- Takes steps in a row. -/
def performAll (layout : ProjectionLayout) : List Step → Writing Unit
  | [] => pure ()
  | step :: steps => do
    step.perform layout
    performAll layout steps

/-- Where steps lead that begin at a place. -/
def arrival : Place → List Step → Place
  -- Neither pieces nor parts are moves.
  | place, [] => place
  | _, moveTo place :: steps => arrival place steps
  | place, _ :: steps => arrival place steps

/-- Whether a step is taken at a place and stays there. -/
def At (place : Place) : Step → Prop
  | put _ => True
  | moveTo _ => False
  | part here _ => here = place

/-- Steps that are all taken at one place. -/
def Level (place : Place) (steps : List Step) : Prop :=
  ∀ step ∈ steps, step.At place

/-- Steps in several rows, with pieces put between neighbours. -/
def row (separator : List Piece) (items : List (List Step)) : List Step :=
  List.intercalate [put separator] items

/-- Parts in a row, all to be begun at one place. -/
def parts (place : Place) (separator : List Piece) (nodes : List Node) : List Step :=
  row separator (nodes.map fun node => [part place node])

/-- A part that may be absent, after pieces that are absent with it and before a space. -/
def optionalPart (place : Place) (introduction : List Piece) (node : Option Node) : List Step :=
  (node.map fun node => [put introduction, part place node, put [.space]]).getD []

/-- A clause that may be absent, on a line of its own after the words that announce it. -/
def clause (place : Place) (words : List Keyword) (content : Option (List Step)) : List Step :=
  (content.map (put (.line place.indent :: Piece.words words ++ [.space]) :: ·)).getD []

variable {layout : ProjectionLayout} {place start : Place} {first second steps : List Step}

/-- Steps in two rows are taken one row after the other. -/
theorem performAll_append (first second : List Step) :
    performAll layout (first ++ second) =
      performAll layout first >>= fun _ => performAll layout second := by
  -- The induction is on the first row, step by step.
  induction first with
  | nil => simp [performAll]
  | cons step first ih => simp [performAll, ih]

/-- Steps lead where their moves do, whatever is written in the others. -/
theorem place_performAll (steps : List Step) (page : Page) :
    ((performAll layout steps).run page).2.place = arrival page.place steps := by
  -- The induction is on the steps, from whatever page the steps before them have left.
  induction steps generalizing page with
  | nil => rfl
  | cons step steps ih =>
    rw [performAll, StateT.run_bind]
    cases step with
    | put pieces =>
      rw [perform, Writing.run_putAll]
      exact ih (page.add pieces)
    | moveTo place =>
      rw [perform, Writing.run_moveTo]
      exact ih (page.at_ place)
    | part place node =>
      -- Whatever the node is, it leaves the page where it was begun.
      rw [perform, Node.run_write]
      exact ih (page.add (node.pieces layout page.place))

/-- Steps in two rows lead where the second leads from where the first does. -/
theorem arrival_append (first second : List Step) (start : Place) :
    arrival start (first ++ second) = arrival (arrival start first) second := by
  -- Each step of the first row decides where the next one starts.
  induction first generalizing start with
  | nil => rfl
  | cons step first ih => cases step <;> exact ih _

namespace Level

/-- Steps that are all taken at one place lead nowhere else. -/
theorem arrival_eq (level : Level place steps) : arrival start steps = start := by
  -- No step is a move, so each leaves the place as it was.
  induction steps with
  | nil => rfl
  | cons step steps ih =>
    obtain ⟨here, others⟩ := List.forall_mem_cons.1 level
    cases step with
    | put => exact ih others
    | moveTo => exact here.elim
    | part => exact ih others

/-- Two rows of steps are taken at one place if each of them is. -/
theorem append (begins : Level place first) (ends : Level place second) :
    Level place (first ++ second) :=
  List.forall_mem_append.2 ⟨begins, ends⟩

/-- Pieces may be put at any place. -/
theorem put (pieces : List Piece) (level : Level place steps) :
    Level place (.put pieces :: steps) :=
  List.forall_mem_cons.2 ⟨trivial, level⟩

/-- A part is taken at the place where it is to be begun. -/
theorem part (node : Node) (level : Level place steps) : Level place (.part place node :: steps) :=
  List.forall_mem_cons.2 ⟨rfl, level⟩

/-- Without steps there is nothing to be moved. -/
theorem nil : Level place [] :=
  List.forall_mem_nil _

/-- Several rows are taken at one place if each of them is. -/
theorem row {separator : List Piece} {items : List (List Step)}
    (each : ∀ item ∈ items, Level place item) : Level place (row separator items) := by
  -- Between two rows there are pieces only, and pieces may be put anywhere.
  induction items with
  | nil => exact nil
  | cons item items ih =>
    obtain ⟨first, others⟩ := List.forall_mem_cons.1 each
    cases items with
    | nil => simpa only [Step.row, List.intercalate_singleton] using first
    | cons next items =>
      rw [Step.row, List.intercalate_cons_cons]
      exact (first.append (nil.put separator)).append (ih others)

/-- Parts in a row are taken at one place. -/
theorem parts (separator : List Piece) (nodes : List Node) :
    Level place (parts place separator nodes) := by
  refine row fun item member => ?_
  obtain ⟨node, _, rfl⟩ := List.mem_map.1 member
  exact nil.part node

/-- What may be absent is taken at one place if it is wherever it is there. -/
theorem given {α : Type} {each : α → List Step} (level : ∀ content, Level place (each content))
    (content : Option α) : Level place ((content.map each).getD []) := by
  -- What is absent has no steps.
  cases content with
  | none => exact nil
  | some content => exact level content

/-- A part that may be absent is taken at its place. -/
theorem optionalPart (introduction : List Piece) (node : Option Node) :
    Level place (optionalPart place introduction node) :=
  given (fun node => ((nil.put [.space]).part node).put introduction) node

/-- A clause is taken at one place if what it holds is. -/
theorem clause {α : Type} {each : α → List Step} (words : List Keyword)
    (level : ∀ content, Level place (each content)) (content : Option α) :
    Level place (clause place words (content.map each)) := by
  rw [Step.clause, Option.map_map]
  exact given (fun content => (level content).put _) content

end Level

/-- Whether every part is to be begun where the steps before it lead, from a place on. -/
def Placed : Place → List Step → Prop
  | _, [] => True
  | place, put _ :: steps => Placed place steps
  | _, moveTo place :: steps => Placed place steps
  | place, part here _ :: steps => here = place ∧ Placed place steps

/-- Steps in two rows are placed if each row is where it is begun. -/
theorem placed_append (first second : List Step) (start : Place) :
    Placed start (first ++ second) ↔ Placed start first ∧ Placed (arrival start first) second := by
  -- The second row is begun where the first leads, so only a part in the first adds a condition.
  induction first generalizing start with
  | nil => exact ⟨fun placed => ⟨trivial, placed⟩, And.right⟩
  | cons step first ih =>
    cases step with
    | put pieces => exact ih start
    | moveTo place => exact ih place
    | part here node => exact (and_congr_right fun _ => ih start).trans and_assoc.symm

/-- Steps that are all taken at one place are placed from there on. -/
theorem Level.placed (level : Level place steps) : Placed place steps := by
  -- As long as nothing moves, all parts are begun at the one place.
  induction steps with
  | nil => trivial
  | cons step steps ih =>
    obtain ⟨here, others⟩ := List.forall_mem_cons.1 level
    cases step with
    | put => exact ih others
    | moveTo => exact here.elim
    | part => exact ⟨here, ih others⟩

/-- The steps before a part lead to the place where it is to be begun. -/
theorem Placed.arrival_eq {here : Place} {node : Node}
    (placed : Placed start (first ++ part here node :: second)) : arrival start first = here :=
  -- What is placed as a whole is so from the part on.
  ((placed_append ..).1 placed).2.1.symm

/-- A step of a row is a step of all rows together. -/
theorem mem_row {separator : List Piece} {item : List Step} {items : List (List Step)} {step : Step}
    (inside : step ∈ item) (member : item ∈ items) : step ∈ row separator items := by
  -- The induction looks for the row that holds the step.
  induction items with
  | nil => exact absurd member List.not_mem_nil
  | cons first items ih =>
    cases items with
    | nil =>
      obtain rfl := List.mem_singleton.1 member
      simpa only [row, List.intercalate_singleton] using inside
    | cons next items =>
      rw [row, List.intercalate_cons_cons]
      obtain rfl | member := List.mem_cons.1 member
      · exact List.mem_append_left _ (List.mem_append_left _ inside)
      · exact List.mem_append_right _ (ih member)

/-- Each of several parts is a step of its own. -/
theorem mem_parts {separator : List Piece} {node : Node} {nodes : List Node}
    (member : node ∈ nodes) : part place node ∈ parts place separator nodes :=
  mem_row (List.mem_singleton_self _) (List.mem_map_of_mem member)

end Step

open Step

/-- The steps in which a branch is written at a place. -/
def Branch.steps (place : Place) (branch : Branch) : List Step :=
  [put [.keyword .when, .space], part place branch.condition,
    put [.space, .keyword .then_, .space], part place branch.result, put [.space]]

/-- The steps in which a sort key is written at a place. -/
def SortKey.steps (place : Place) (key : SortKey) : List Step :=
  [part place key.key,
    put (key.options.flatMap fun option => .space :: Piece.words option.keywords)]

/-- The steps in which a statement is written up to its sources. -/
def Select.headSteps (layout : ProjectionLayout) (place : Place) (statement : Select) :
    List Step :=
  [put [.keyword .select], put (if statement.distinct then [.space, .keyword .distinct] else [])]
    ++ (statement.projections.map fun nodes =>
      put [.space] :: parts place.clause (layout.separator place.nested) nodes).getD []
    ++ clause place.clause [.from_] (statement.sources.map (parts place.clause commaSpace))

/-- The steps in which the condition of a statement is written. -/
def Select.filterSteps (place : Place) (statement : Select) : List Step :=
  clause place.filter [.where_] (statement.filter.map fun node => [part place.filter node])

/-- The steps in which a statement is written after its condition. -/
def Select.tailSteps (place : Place) (statement : Select) : List Step :=
  clause place.clause [.group, .by_] (statement.groupBy.map (parts place.clause commaSpace))
    ++ clause place.clause [.order, .by_]
      (statement.orderBy.map fun keys => row commaSpace (keys.map (·.steps place.clause)))
    ++ clause place.clause [.limit] (statement.limit.map fun node => [part place.clause node])
    ++ (statement.offset.map fun node =>
      [put [if statement.limit.isSome then .space else .line place.nested],
        put [.keyword .offset, .space], part place.clause node]).getD []

/-- The steps in which a statement is written at a place. It moves into its clauses, from there into
its condition and back, and in the end to where it began. -/
def Select.steps (layout : ProjectionLayout) (place : Place) (statement : Select) : List Step :=
  [put (if place.enclosing.isSome then [.line place.nested] else []), moveTo place.clause]
    ++ statement.headSteps layout place
    ++ [moveTo place.filter] ++ statement.filterSteps place
    ++ [moveTo place.clause] ++ statement.tailSteps place
    ++ [moveTo place, put [.line place.indent]]

/-- The steps in which a node is written at a place. All parts of it are to be begun at that place,
unless it is a statement. -/
def Node.steps (layout : ProjectionLayout) (place : Place) : Node → List Step
  | .literal text => [put [.verbatim text]]
  | .reference none name => [put [.verbatim name]]
  | .reference (some table) name => [put [.verbatim table, .mark .dot, .verbatim name]]
  | .call name arguments =>
    put [.verbatim name, .mark .openParen] :: parts place commaSpace arguments
      ++ [put [.mark .closeParen]]
  | .range low high => [part place low, put [.space, .keyword .and, .space], part place high]
  | .list items =>
    put [.mark .openParen] :: parts place commaSpace items ++ [put [.mark .closeParen]]
  | .case subject branches otherwise =>
    put [.keyword .case, .space] :: optionalPart place [] subject
      ++ branches.flatMap (·.steps place)
      ++ optionalPart place [.keyword .else_, .space] otherwise ++ [put [.keyword .end_]]
  | .binary left op right negated =>
    [part place left, put [place.gapBefore op],
      put (if negated then [.keyword .not, .space] else []), put (Piece.spaced op.terminals),
      put [.space], part place right]
  | .unary op operand => [put op.pieces, part place operand]
  | .parens inner => [put [.mark .openParen], part place inner, put [.mark .closeParen]]
  | .aliasAs inner name => [part place inner, put [.space, .keyword .as, .space, .verbatim name]]
  | .aliasBare inner name => [part place inner, put [.space, .verbatim name]]
  | .join kind left right condition =>
    [part place left, put [.line place.indent], put kind.pieces, put [.space], part place right]
      ++ clause place [.on] (condition.map fun node => [part place node])
  | .subscript value index =>
    [part place value, put [.mark .openBracket], part place index, put [.mark .closeBracket]]
  | .cast value target => [part place value, put [.mark .doubleColon], part place target]
  | .select statement => statement.steps layout place

variable {layout : ProjectionLayout} {place : Place}

/-- The branches of a choice are written at its place. -/
theorem level_branches (branches : List Branch) :
    Level place (branches.flatMap (·.steps place)) :=
  -- A branch is two parts between pieces.
  List.forall_mem_flatMap.2 fun _ _ => ((((Level.nil.put _).part _).put _).part _).put _

/-- Sort keys in a row are written at one place. -/
theorem level_keys (keys : List SortKey) :
    Level place (row commaSpace (keys.map (·.steps place))) := by
  refine .row fun item member => ?_
  obtain ⟨key, _, rfl⟩ := List.mem_map.1 member
  exact (Level.nil.put _).part _

namespace Select

/-- Projections and sources are written in clauses of the statement. -/
theorem level_head (layout : ProjectionLayout) (place : Place) (statement : Select) :
    Level place.clause (statement.headSteps layout place) := by
  refine .append (.append ((Level.nil.put _).put _) ?_) (.clause _ (.parts _) _)
  exact .given (fun nodes => (Level.parts _ nodes).put _) _

/-- The condition is written in the `WHERE` of the statement. -/
theorem level_filter (place : Place) (statement : Select) :
    Level place.filter (statement.filterSteps place) :=
  .clause _ (fun _ => Level.nil.part _) _

/-- What comes after the condition is written in clauses of the statement again. -/
theorem level_tail (place : Place) (statement : Select) :
    Level place.clause (statement.tailSteps place) := by
  -- Each of the four clauses is taken in the clauses of the statement.
  refine .append (.append (.append ?grouping ?ordering) ?limit) ?offset
  case grouping => exact .clause _ (.parts _) _
  case ordering => exact .clause _ level_keys _
  case limit => exact .clause _ (fun _ => Level.nil.part _) _
  case offset => exact .given (fun _ => ((Level.nil.part _).put _).put _) _

/-- Whatever a statement holds, its parts are to be begun where its moves lead. -/
theorem placed_steps (layout : ProjectionLayout) (place : Place) (statement : Select) :
    Placed place (statement.steps layout place) := by
  have head := statement.level_head layout place
  have filter := statement.level_filter place
  have tail := statement.level_tail place
  -- Each move leads to the place at which the steps after it are taken.
  simp only [Select.steps, placed_append, arrival_append, arrival, Placed, head.placed,
    filter.placed, tail.placed, and_self]

/-- The parts of a statement are to be begun in its clauses, and only its condition in `WHERE`. -/
theorem place_of_part_mem {statement : Select} {here : Place} {inner : Node}
    (member : part here inner ∈ statement.steps layout place) :
    here = place.clause ∨ here = place.filter ∧ statement.filter = some inner := by
  -- A part stands before the condition, in it, or after it, since moves hold no parts.
  simp only [Select.steps, List.mem_append, List.mem_cons, reduceCtorEq, List.not_mem_nil, false_or,
    or_false] at member
  obtain (member | member) | member := member
  · exact .inl (statement.level_head layout place _ member)
  · refine .inr ?_
    rw [filterSteps] at member
    cases present : statement.filter with
    | none => simp [present, clause] at member
    | some node => simpa [present, clause, eq_comm] using member
  · exact .inl (statement.level_tail place _ member)

end Select

end SelectSql
