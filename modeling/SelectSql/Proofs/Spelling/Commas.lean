import SelectSql.Proofs.Spelling.Induction
import SelectSql.Proofs.Spelling.Tight

/-!
The commas of a statement. In the order of the text there is one between any two neighbours of a
list, and of all these only the comma after the name of a projection is tight.
-/

namespace SelectSql

variable {α : Type} {slots ending : List Slot} {tight : Bool} {node : Node}

section Trees

/-- What a list gives for its items and for the commas between them. -/
def listCommas (comma : α → Bool) (inside : α → List Bool) : List α → List Bool
  | [] => []
  | [item] => inside item
  | item :: next :: items => inside item ++ comma item :: listCommas comma inside (next :: items)

/-- The commas inside an expression, none of which follows the name of a projection. -/
def Node.innerCommas (node : Node) : List Bool :=
  -- These stand in argument lists and after `IN`, where every item leaves a gap.
  List.replicate ((solids node.spelling).count (.mark .comma)) false

/-- Whether a projection has a name. -/
def Node.isNamed : Node → Bool
  | .aliasAs .. => true
  | _ => false

mutual

/-- For each comma of a source, whether it follows the name of a projection. -/
def Node.commas : Node → List Bool
  | .parens inner | .aliasAs inner _ | .aliasBare inner _ => inner.commas
  | .join _ left right condition =>
    left.commas ++ right.commas ++ condition.elim [] Node.innerCommas
  | .select statement => statement.commas
  -- A table has no commas, and expressions are no sources.
  | _ => []

/-- For each comma of sources in a list, whether it follows the name of a projection. -/
def sourceCommas : List Node → List Bool
  | [] => []
  | [node] => node.commas
  | node :: next :: nodes => node.commas ++ false :: sourceCommas (next :: nodes)

/-- For each comma of a clause of sources, whether it follows the name of a projection. -/
def sourceCommas? : Option (List Node) → List Bool
  | none => []
  | some nodes => sourceCommas nodes

/-- For each comma of a statement, whether it follows the name of a projection. -/
def Select.commas : Select → List Bool
  | ⟨_, projections, sources, filter, groupBy, orderBy, limit, offset⟩ =>
    projections.elim [] (listCommas Node.isNamed fun node => node.unnamed.innerCommas)
      ++ sourceCommas? sources
      ++ filter.elim [] Node.innerCommas
      ++ groupBy.elim [] (listCommas (fun _ => false) Node.innerCommas)
      ++ orderBy.elim [] (listCommas (fun _ => false) fun key => key.key.innerCommas)
      ++ limit.elim [] Node.innerCommas
      ++ offset.elim [] Node.innerCommas

end

/-- The commas of sources are those inside them and those between them. -/
theorem sourceCommas_eq (nodes : List Node) :
    sourceCommas nodes = listCommas (fun _ => false) Node.commas nodes := by
  fun_induction listCommas (fun _ => false) Node.commas nodes with
  | case1 => rfl
  | case2 node => rfl
  | case3 node next nodes ih => rw [sourceCommas, ih]

/-- A clause of sources has the commas of its list. -/
theorem sourceCommas?_eq (sources : Option (List Node)) :
    sourceCommas? sources = sources.elim [] (listCommas (fun _ => false) Node.commas) := by
  cases sources with
  | none => rfl
  -- Sources have a recursion of their own, which comes to that over lists.
  | some nodes => exact sourceCommas_eq nodes

end Trees

section Expressions

/-- No comma of an expression is tight. -/
private theorem loose_steps :
    ExpressionSteps fun slots => ∀ tight, ∀ held ∈ tightCommas tight slots, held = false where
  nil := by simp [tightCommas]
  append first second := by
    intro tight
    rw [tightCommas_append]
    exact List.forall_mem_append.2 ⟨first tight, second _⟩
  token _ other := by simp [tightCommas, other]
  comma := by simp [tightCommas]
  gap := by simp [tightCommas]
  blank := by simp [tightCommas]
  takes := by simp [tightCommas]
  apart := by simp [tightCommas]
  name := by simp [tightCommas]

/-- The commas of an expression in its spelling. -/
theorem Node.tightCommas_spelling (node : Node) :
    tightCommas tight node.spelling = node.innerCommas := by
  -- There is one flag for each comma, and none of them is set.
  rw [innerCommas, List.eq_replicate_iff]
  exact ⟨length_tightCommas, loose_steps.spelling node tight⟩

/-- An expression with the white space around it has its commas, and room after it. -/
theorem Node.tightCommas_padded {limit : Tier} (node : Node) :
    tightCommas tight (node.padded limit) = node.innerCommas ∧
      tightAfter tight (node.padded limit) = false := by
  simp [padded, pad, tightCommas_append, tightAfter_append, tightCommas, tightAfter,
    tightCommas_spelling]

end Expressions

section Lists

/-- Items with commas between them, each with room or not before the comma after it. -/
theorem tightCommas_commaSlots {each : α → List Slot} {comma : α → Bool} {inside : α → List Bool}
    {items : List α}
    (shape : ∀ item ∈ items, ∀ tight, tightCommas tight (each item) = inside item ∧
      tightAfter tight (each item) = comma item)
    (last : ∀ tight, tightCommas tight ending = []) :
    tightCommas tight (commaSlots ending (items.map each)) = listCommas comma inside items := by
  -- After a comma there is no room until the next item begins, whatever was before it.
  fun_induction listCommas comma inside items generalizing tight with
  | case1 => rfl
  | case2 item =>
    rw [List.map_singleton, commaSlots, tightCommas_append, last, List.append_nil]
    exact (shape item (by simp) tight).1
  -- The item is followed by a comma, which is tight if the item leaves no room.
  | case3 item next items ih =>
    obtain ⟨flags, room⟩ := shape item (by simp) tight
    have ih := @ih true fun other member => shape other (List.mem_cons_of_mem _ member)
    rw [List.map_cons] at ih
    simp [commaSlots, tightCommas_append, tightCommas, flags, room, ih]

/-- A list of expressions has their commas, and room before each comma between them. -/
theorem tightCommas_list {items : List α} {each : α → List Slot} {inside : α → List Bool}
    (shape : ∀ item ∈ items, ∀ tight, tightCommas tight (each item) = inside item ∧
      tightAfter tight (each item) = false) :
    tightCommas tight (commaSlots noComma (items.map each)) =
      listCommas (fun _ => false) inside items :=
  tightCommas_commaSlots shape fun _ => rfl

end Lists

section Statements

/-- A projection has the commas of its expression, and no room after its name. -/
theorem Node.tightCommas_projection (node : Node) :
    tightCommas tight node.projectionSlots = node.unnamed.innerCommas ∧
      tightAfter tight node.projectionSlots = node.isNamed := by
  -- Only a name is the last thing that a projection takes.
  cases node with
  | aliasAs inner name =>
    obtain ⟨flags, room⟩ := @inner.tightCommas_padded tight .expression
    simp [projectionSlots, tightCommas_append, tightAfter_append, tightCommas, tightAfter,
      unnamed, isNamed, flags, (Lexeme.ofText_solid name).2]
  | _ =>
    simp [projectionSlots, tightCommas_append, tightAfter_append, tightCommas, tightAfter,
      unnamed, isNamed, tightCommas_padded]

/-- Projections have the commas of their expressions, tight after names. -/
theorem tightCommas_projections (projections : Option (List Node)) :
    tightCommas tight (projectionSlots projections) =
      projections.elim [] (listCommas Node.isNamed fun node => node.unnamed.innerCommas) := by
  cases projections with
  | none => rfl
  | some nodes =>
    -- What must not follow the last projection takes no comma.
    have ending : ∀ tight, tightCommas tight
        ((nodes.getLast?.map Node.projectionEnd).getD []) = [] := by
      intro tight
      cases nodes.getLast? with
      | none => rfl
      | some node => cases node <;> rfl
    -- The items are spelled one by one, each with the room that its shape leaves.
    have listed := @tightCommas_commaSlots _ _ tight Node.projectionSlots Node.isNamed _ nodes
      (fun node _ tight => node.tightCommas_projection) ending
    simp [projectionSlots, tightCommas_append, tightCommas, listed]

/-- A clause that may be absent has the commas of its content. -/
theorem tightCommas_clause {content : Option α} {word : Keyword} {each : α → List Slot}
    {inside : α → List Bool}
    (shape : ∀ item ∈ content, ∀ tight, tightCommas tight (each item) = inside item) :
    tightCommas tight (clauseSlots word (content.map each)) = content.elim [] inside := by
  cases content with
  | none => rfl
  | some item => simp [clauseSlots, tightCommas, shape item rfl]

/-- Keywords in a row are no commas. -/
theorem tightCommas_keywords (words : List Keyword) :
    tightCommas tight (keywordSlots words) = [] := by
  fun_induction keywordSlots words generalizing tight with
  | case1 => rfl
  | case2 word => simp [tightCommas]
  | case3 word next words ih => simp [tightCommas, ih]

/-- The modifiers of a sort key are no commas, and leave room after them. -/
private theorem tightCommas_options (options : List SortOption) :
    let slots := options.flatMap fun option => keywordSlots option.keywords ++ [.gap]
    tightCommas tight slots = [] ∧ tightAfter false slots = false := by
  induction options generalizing tight with
  | nil => exact ⟨rfl, rfl⟩
  | cons option options ih =>
    -- Each modifier ends with a gap, so the next one has room before it.
    obtain ⟨none, after⟩ := @ih false
    rw [List.flatMap_cons]
    simp [tightCommas_append, tightAfter_append, tightCommas_keywords, tightCommas, tightAfter,
      none, after]

/-- A sort key has the commas of its expression, and room after it. -/
theorem SortKey.tightCommas_slots (key : SortKey) :
    tightCommas tight key.slots = key.key.innerCommas ∧ tightAfter tight key.slots = false := by
  obtain ⟨flags, room⟩ := @key.key.tightCommas_padded tight .expression
  obtain ⟨none, after⟩ := @tightCommas_options false key.options
  simp [SortKey.slots, tightCommas_append, tightAfter_append, tightCommas, tightAfter, flags, room,
    none, after]

/-- A list after `BY` has the commas of its items, and room before each comma between them. -/
theorem tightCommas_byList {items : List α} {each : α → List Slot} {inside : α → List Bool}
    (shape : ∀ item ∈ items, ∀ tight, tightCommas tight (each item) = inside item ∧
      tightAfter tight (each item) = false) :
    tightCommas tight (byListSlots (items.map each)) =
      listCommas (fun _ => false) inside items := by
  have listed := @tightCommas_list _ true items each inside shape
  simpa [byListSlots, tightCommas] using listed

/-- The end of a member has no commas. -/
theorem Node.tightCommas_memberEnd (node : Node) : tightCommas tight node.memberEnd = [] := by
  unfold memberEnd
  split <;> rfl

/-- A source with the white space around it has its commas, and room after it. -/
theorem tightCommas_padSource :
    tightCommas tight (padSource node slots) = tightCommas false slots ∧
      tightAfter tight (padSource node slots) = false := by
  simp [padSource, tightCommas_append, tightAfter_append, tightCommas, tightAfter,
    Node.tightCommas_memberEnd]

/-- The commas of sources and statements in their spellings. -/
theorem commas_steps : TreeInduction
    (fun node => ∀ tight, tightCommas tight node.sourceSlots = node.commas)
    fun statement => ∀ tight, tightCommas tight statement.slots = statement.commas where
  literal _ _ := rfl
  -- A name is never a comma.
  reference table name tight := by
    cases table with
    | none => simp [Node.sourceSlots, tightCommas, Node.commas, (Lexeme.ofText_solid name).2]
    | some table =>
      simp [Node.sourceSlots, tightCommas, Node.commas, (Lexeme.ofText_solid name).2,
        (Lexeme.ofText_solid table).2]
  call _ _ _ _ := rfl
  range _ _ _ _ _ := rfl
  list _ _ _ := rfl
  case _ _ _ _ _ _ _ := rfl
  binary _ _ _ _ _ _ _ := rfl
  unary _ _ _ _ := rfl
  parens inner held tight := by
    simp [Node.sourceSlots, tightCommas_append, tightCommas, Node.commas, tightCommas_padSource,
      held]
  aliasAs inner name named tight := by
    simp [Node.sourceSlots, tightCommas_append, tightCommas, Node.commas, named,
      (Lexeme.ofText_solid name).2]
  aliasBare inner name named tight := by
    simp [Node.sourceSlots, tightCommas_append, tightCommas, Node.commas, named,
      (Lexeme.ofText_solid name).2]
  join kind left right condition before after _ tight := by
    -- The condition of a join is an expression after its word.
    have under : ∀ tight, tightCommas tight
        (clauseSlots .on (condition.map (Node.padded .expression))) =
          condition.elim [] Node.innerCommas := fun tight =>
      tightCommas_clause fun node _ tight => node.tightCommas_padded.1
    simp [Node.sourceSlots, tightCommas_append, tightCommas, Node.commas, before, after, under,
      Node.tightCommas_memberEnd, tightCommas_keywords]
  subscript _ _ _ _ _ := rfl
  cast _ _ _ _ _ := rfl
  select _ inside := inside
  statement distinct projections sources filter groupBy orderBy limit offset
      _ members _ _ _ _ _ := by
    intro tight
    -- One clause after the other, each wherever it stands.
    have given : ∀ tight, tightCommas tight (clauseSlots .from_ (sources.map fun nodes =>
        commaSlots noComma (nodes.map Node.paddedSource))) = sourceCommas? sources := by
      intro tight
      rw [sourceCommas?_eq]
      apply tightCommas_clause
      intro nodes held tight
      apply tightCommas_list
      intro node among tight
      obtain ⟨flags, room⟩ := @tightCommas_padSource node.sourceSlots tight node
      exact ⟨flags.trans (members nodes held node among false), room⟩
    -- These clauses hold expressions alone, with room around each.
    have filtered := fun tight => @tightCommas_clause _ tight filter .where_ _ _ fun node _ tight =>
      (@node.tightCommas_padded tight .expression).1
    have grouped := fun tight => @tightCommas_clause _ tight groupBy .group _ _ fun nodes _ tight =>
      @tightCommas_byList _ tight nodes _ _ fun node _ tight =>
        @node.tightCommas_padded tight .expression
    have ordered := fun tight => @tightCommas_clause _ tight orderBy .order _ _ fun keys _ tight =>
      @tightCommas_byList _ tight keys _ _ fun key _ tight => @key.tightCommas_slots tight
    -- A row count is one expression, with room around it.
    have counted : ∀ word (count : Option Node) tight, tightCommas tight
        (clauseSlots word (count.map rowCountSlots)) = count.elim [] Node.innerCommas := by
      intro word count tight
      apply tightCommas_clause
      intro node _ tight
      simp [rowCountSlots, tightCommas_append, tightCommas, Node.tightCommas_spelling]
    -- The word `DISTINCT` and the look in its place have no commas.
    have front : ∀ tight, tightCommas tight (if distinct = true then [.keyword .distinct]
        else [.notBefore (· == .keyword .distinct)]) = [] := by
      cases distinct <;> simp [tightCommas]
    rw [Select.slots_eq]
    simp [tightCommas_append, tightCommas, front, given, filtered, grouped, ordered, counted,
      Select.commas, tightCommas_projections]

/-- Of the commas of a statement exactly those after names of projections are tight. -/
theorem Select.tightCommas_slots (statement : Select) :
    tightCommas tight statement.slots = statement.commas :=
  commas_steps.whole statement tight

end Statements

end SelectSql
