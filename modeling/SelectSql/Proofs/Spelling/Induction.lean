import SelectSql.Proofs.Spelling.Ahead
import SelectSql.Proofs.Spelling.Reach
import SelectSql.Proofs.Spelling.Statement
import SelectSql.Syntax.Induction

/-!
Induction over spellings. What holds of every single slot that occurs in spellings, and of slots in
a row if it holds of both parts, holds of the spelling of every tree.
-/

namespace SelectSql

/-- The steps of an induction over the spellings of expressions. -/
structure ExpressionSteps (F : List Slot → Prop) : Prop where
  /-- No slots at all. -/
  nil : F []
  /-- Slots in a row, from both parts. -/
  append : ∀ {slots others}, F slots → F others → F (slots ++ others)
  /-- A lexeme other than white space and a comma. -/
  token : ∀ {lexeme}, lexeme ≠ .space → lexeme ≠ .mark .comma → F [.token lexeme]
  /-- A comma after an expression. -/
  comma : ∀ limit node, F [.gap, .notBefore (Node.takes limit node), .mark .comma]
  /-- White space, or none. -/
  gap : F [.gap]
  /-- White space. -/
  blank : F [.blank]
  /-- The end of an expression. -/
  takes : ∀ limit node, F [.notBefore (Node.takes limit node)]
  /-- A word or a mark that must not follow; none of these is a closing parenthesis. -/
  apart : ∀ terminal, terminal ≠ .mark .closeParen → F [.notBefore (· == .symbol terminal)]
  /-- The end of a bare name. -/
  name : F [.notTouching Lexeme.extendsName]

/-- The steps of an induction over the spellings of sources and statements. -/
structure StatementSteps (F : List Slot → Prop) : Prop extends ExpressionSteps F where
  /-- A comma, whatever it comes after. -/
  separator : F [.mark .comma]
  /-- The end of a source. -/
  source : F [.notBefore (·.joinKind?.isSome)]
  /-- The end of a member of a join that has no name. -/
  member : F [.notBefore Lexeme.namesSource]
  /-- The end of a sort key. -/
  key : ∀ options, F [.notBefore (SortOption.goesOn options)]
  /-- A mark that must not touch. -/
  touching : ∀ sign ∈ [Mark.dot, .comma], F [.notTouching (· == .mark sign)]
  /-- The front of a statement without projections. -/
  bare : ∀ distinct : Bool, F (.keyword .select :: .gap ::
    (if distinct then [.keyword .distinct] else [.notBefore (· == .keyword .distinct)])
    ++ .gap :: projectionSlots none)

variable {F : List Slot → Prop} {slots : List Slot} {α : Type} {values : List α}
  {spelled : α → List Slot}

/-- The text of a tree is neither white space nor a comma. -/
theorem Lexeme.ofText_solid (text : String) :
    Lexeme.ofText text ≠ .space ∧ Lexeme.ofText text ≠ .mark .comma := by
  unfold Lexeme.ofText
  -- A text is one of the two symbols, a literal or a name.
  repeat' split
  all_goals simp

namespace ExpressionSteps

/-- A slot and those after it. -/
theorem cons (steps : ExpressionSteps F) {slot : Slot} (first : F [slot]) (rest : F slots) :
    F (slot :: slots) :=
  steps.append first rest

/-- A symbol other than a comma. -/
theorem symbol (steps : ExpressionSteps F) (terminal : Terminal) (other : terminal ≠ .mark .comma) :
    F [.token (.symbol terminal)] :=
  steps.token (by simp) (by simpa using other)

/-- A keyword. -/
theorem keyword (steps : ExpressionSteps F) (word : Keyword) : F [.keyword word] :=
  steps.symbol _ (by simp)

/-- A mark other than a comma. -/
theorem mark (steps : ExpressionSteps F) {sign : Mark} (other : sign ≠ .comma) : F [.mark sign] :=
  steps.symbol _ (by simpa using other)

/-- A keyword that must not follow. -/
theorem noKeyword (steps : ExpressionSteps F) (word : Keyword) :
    F [.notBefore (· == .keyword word)] :=
  steps.apart _ (by simp)

/-- A text that stands in a tree. -/
theorem text (steps : ExpressionSteps F) (text : String) : F [.token (.ofText text)] :=
  steps.token (Lexeme.ofText_solid text).1 (Lexeme.ofText_solid text).2

/-- An expression with the white space around it. -/
theorem pad (steps : ExpressionSteps F) (limit : Tier) (node : Node) (inner : F slots) :
    F (SelectSql.pad limit node slots) :=
  -- The look ahead comes last, behind the white space.
  steps.append (steps.cons steps.gap inner) (steps.cons steps.gap (steps.takes limit node))

/-- The end of a list. -/
theorem noComma (steps : ExpressionSteps F) : F SelectSql.noComma :=
  steps.apart (.mark .comma) (by decide)

/-- Keywords in a row. -/
theorem keywords (steps : ExpressionSteps F) (words : List Keyword) : F (keywordSlots words) := by
  -- Between two words there is a gap, and none after the last.
  fun_induction keywordSlots words with
  | case1 => exact steps.nil
  | case2 word => exact steps.keyword word
  | case3 word next words ih => exact steps.cons (steps.keyword word) (steps.cons steps.gap ih)

/-- An operator between its operands. -/
theorem operator (steps : ExpressionSteps F) (op : BinaryOp) : F op.slots := by
  -- Only the two forms of `IS` are more than one symbol.
  cases op with
  | is => exact steps.cons (steps.keyword _) (steps.cons steps.gap (steps.noKeyword _))
  | isNot => exact steps.cons (steps.keyword _) (steps.cons steps.gap (steps.keyword _))
  | _ => exact steps.symbol _ (by decide)

/-- A right operand. -/
theorem right (steps : ExpressionSteps F) (op : BinaryOp) (node : Node) (inner : F slots) :
    F (op.rightSlots node slots) := by
  unfold BinaryOp.rightSlots
  -- A range is spelled as it stands, a list has white space around it, and all else looks ahead.
  split
  · exact inner
  · exact steps.append (steps.cons steps.gap inner) steps.gap
  · exact steps.pad _ _ inner

/-- An expression that may be absent, after what announces it. -/
theorem option (steps : ExpressionSteps F) {words : List Slot} {part : Option Node}
    (front : F words) (each : ∀ node ∈ part, F node.spelling) : F (paddedOption words part) := by
  cases part with
  | none => exact steps.nil
  | some node => exact steps.append front (steps.pad _ _ (each node rfl))

/-- Branches in a row. -/
theorem branches (steps : ExpressionSteps F) {branches : List Branch}
    (each : ∀ branch ∈ branches, F branch.condition.spelling ∧ F branch.result.spelling) :
    F (branchSlots branches) := by
  induction branches with
  | nil => exact steps.nil
  | cons branch branches ih =>
    obtain ⟨condition, result⟩ := each branch (by simp)
    have rest := ih fun other member => each other (List.mem_cons_of_mem _ member)
    rw [branchSlots, Branch.slots_eq]
    -- Every branch begins with its keyword, and the others follow it without a comma.
    refine steps.append (steps.cons (steps.keyword _) ?_) rest
    exact steps.append (steps.pad _ _ condition)
      (steps.cons (steps.keyword _) (steps.pad _ _ result))

/-- Expressions of a list, with commas between them. -/
theorem list (steps : ExpressionSteps F) {nodes : List Node}
    (each : ∀ node ∈ nodes, F node.spelling) :
    F (commaSlots SelectSql.noComma (paddedAll nodes)) := by
  -- The induction is on the items, the last of which stands before the end of the list.
  induction nodes with
  | nil => exact steps.nil
  | cons node nodes ih =>
    have ih := ih fun other member => each other (List.mem_cons_of_mem _ member)
    have first := each node (by simp)
    cases nodes with
    | nil => exact steps.append (steps.pad _ _ first) steps.noComma
    | cons next nodes =>
      -- A comma is a step together with the look ahead in front of it.
      have item := steps.append (steps.cons steps.gap first) (steps.comma .expression node)
      have whole := steps.append item ih
      simpa [paddedAll, commaSlots, SelectSql.pad] using whole

/-- The induction reaches the spelling of every expression. -/
theorem tree (steps : ExpressionSteps F) :
    TreeInduction (fun node => F node.spelling) fun _ => True where
  literal text := steps.text text
  reference table name := by
    cases table with
    | none => exact steps.cons (steps.text name) steps.name
    | some table =>
      exact steps.cons (steps.text table) (steps.cons (steps.mark (by decide)) (steps.text name))
  call name arguments each := by
    refine steps.cons (steps.text name) (steps.cons (steps.mark (by decide)) ?_)
    exact steps.append (steps.cons steps.gap (steps.list each)) (steps.mark (by decide))
  range low high lower upper :=
    steps.append (steps.pad _ _ lower) (steps.cons (steps.keyword _) (steps.pad _ _ upper))
  list items each :=
    steps.append (steps.cons (steps.mark (by decide)) (steps.list each)) (steps.mark (by decide))
  case subject branches otherwise first each last := by
    have subject := steps.option steps.nil first
    have whole := steps.append (steps.append subject (steps.branches each))
      (steps.option (steps.keyword .else_) last)
    refine steps.cons (steps.keyword _) (steps.cons steps.blank ?_)
    exact steps.append whole (steps.keyword _)
  binary left op right negated before after := by
    have negation : F (if negated then [.keyword .not, .gap] else []) := by
      cases negated with
      | false => exact steps.nil
      | true => exact steps.cons (steps.keyword _) steps.gap
    -- The `NOT` stands between the left operand and the operator, with a gap on either side.
    have front := steps.append before (steps.cons steps.gap negation)
    exact steps.append (steps.append front (steps.operator op)) (steps.right op right after)
  unary op operand under :=
    steps.cons (steps.symbol _ (by cases op <;> decide)) (steps.pad _ _ under)
  parens inner held :=
    steps.append (steps.cons (steps.mark (by decide)) (steps.pad _ _ held))
      (steps.mark (by decide))
  -- Sources are spelled by slots of their own, and as expressions they have none.
  aliasAs _ _ _ := steps.nil
  aliasBare _ _ _ := steps.nil
  join _ _ _ _ _ _ _ := steps.nil
  subscript value index base inside := by
    rw [Node.spelling, List.append_assoc]
    refine steps.append base (steps.cons steps.gap (steps.cons (steps.mark (by decide)) ?_))
    exact steps.append (steps.pad _ _ inside) (steps.mark (by decide))
  cast value target base type :=
    steps.append base
      (steps.cons steps.gap (steps.cons (steps.mark (by decide)) (steps.cons steps.gap type)))
  select _ _ := steps.nil
  statement _ _ _ _ _ _ _ _ _ _ _ _ _ _ _ := trivial

/-- The spelling of every expression is reached. -/
theorem spelling (steps : ExpressionSteps F) (node : Node) : F node.spelling :=
  steps.tree.node node

end ExpressionSteps

namespace StatementSteps

/-- Items with commas between them. -/
theorem commaSlots (steps : StatementSteps F) {ending : List Slot}
    (each : ∀ value ∈ values, F (spelled value)) (last : F ending) :
    F (SelectSql.commaSlots ending (values.map spelled)) := by
  -- The ending belongs to the last item.
  induction values with
  | nil => exact steps.nil
  | cons value values ih =>
    have ih := ih fun other member => each other (List.mem_cons_of_mem _ member)
    have first := each value (by simp)
    cases values with
    | nil => exact steps.append first last
    | cons next values => exact steps.append first (steps.cons steps.separator ih)

/-- A projection. -/
theorem projection (steps : StatementSteps F) (node : Node) : F node.projectionSlots := by
  have plain : ∀ node : Node, F (node.padded .expression) := fun node =>
    steps.pad _ _ (steps.spelling node)
  unfold Node.projectionSlots
  -- A name is announced by an `AS`, and without a name none may follow.
  split
  · refine steps.append (plain _) (steps.cons (steps.keyword _) (steps.cons steps.gap ?_))
    exact steps.text _
  · exact steps.append (plain _) (steps.noKeyword _)

/-- A member of a join, named or not. -/
theorem memberEnd (steps : StatementSteps F) (node : Node) : F node.memberEnd := by
  -- Only what has no name of its own looks for one.
  unfold Node.memberEnd
  split
  · exact steps.cons steps.gap steps.member
  · exact steps.cons steps.gap steps.member
  · exact steps.cons steps.gap steps.member
  · exact steps.nil

/-- A source with the white space around it. -/
theorem padSource (steps : StatementSteps F) (node : Node) (inner : F slots) :
    F (SelectSql.padSource node slots) :=
  steps.append (steps.append (steps.cons steps.gap inner) (steps.memberEnd node))
    (steps.cons steps.gap steps.source)

/-- A clause, present or not. -/
theorem clause (steps : StatementSteps F) (word : Keyword) {content : Option α}
    (inner : ∀ value ∈ content, F (spelled value)) :
    F (clauseSlots word (content.map spelled)) := by
  cases content with
  | none => exact steps.noKeyword _
  | some value => exact steps.cons (steps.keyword _) (inner value rfl)

/-- A clause that holds a condition. -/
theorem conditionClause (steps : StatementSteps F) (word : Keyword) (condition : Option Node) :
    F (clauseSlots word (condition.map (Node.padded .expression))) :=
  steps.clause word fun node _ => steps.pad _ _ (steps.spelling node)

/-- A clause that holds a number of rows. -/
theorem countClause (steps : StatementSteps F) (word : Keyword) (count : Option Node) :
    F (clauseSlots word (count.map rowCountSlots)) :=
  steps.clause word fun node _ =>
    steps.append (steps.cons steps.gap (steps.spelling node)) steps.gap

/-- A list after `BY`. -/
theorem byList (steps : StatementSteps F) (each : ∀ value ∈ values, F (spelled value)) :
    F (byListSlots (values.map spelled)) :=
  steps.cons steps.gap (steps.cons (steps.keyword _) (steps.commaSlots each steps.noComma))

/-- A sort key. -/
theorem sortKey (steps : StatementSteps F) (key : SortKey) : F key.slots := by
  -- Each modifier is followed by a gap, the last one as well.
  have modifiers :
      F (key.options.flatMap fun option => keywordSlots option.keywords ++ [.gap]) := by
    induction key.options with
    | nil => exact steps.nil
    | cons option options ih =>
      rw [List.flatMap_cons]
      exact steps.append (steps.append (steps.keywords _) steps.gap) ih
  rw [SortKey.slots]
  exact steps.append (steps.append (steps.pad _ _ (steps.spelling key.key)) modifiers)
    (steps.key key.options)

/-- The front of a statement, up to its clauses. -/
theorem front (steps : StatementSteps F) (distinct : Bool) (projections : Option (List Node)) :
    F (.keyword .select :: .gap ::
      (if distinct then [.keyword .distinct] else [.notBefore (· == .keyword .distinct)])
      ++ .gap :: projectionSlots projections) := by
  -- Without projections the front is one step, since its two looks ahead belong together.
  cases projections with
  | none => exact steps.bare distinct
  | some items =>
    have words : F (if distinct then [.keyword .distinct]
        else [.notBefore (· == .keyword .distinct)]) := by
      cases distinct with
      | false => exact steps.noKeyword _
      | true => exact steps.keyword _
    -- A list ends as its last projection does.
    have ending : F ((items.getLast?.map Node.projectionEnd).getD []) := by
      cases items.getLast? with
      | none => exact steps.nil
      | some node =>
        show F node.projectionEnd
        unfold Node.projectionEnd
        split
        · exact steps.touching .comma (by simp)
        · exact steps.noComma
    have listed : F (projectionSlots (some items)) := by
      refine steps.append (steps.commaSlots ?_ ending) steps.gap
      exact fun node _ => steps.projection node
    exact steps.append (steps.cons (steps.keyword _) (steps.cons steps.gap words))
      (steps.cons steps.gap listed)

/-- The induction reaches the spelling of every source and of every statement. -/
theorem tree (steps : StatementSteps F) :
    TreeInduction (fun node => F node.sourceSlots) fun statement => F statement.slots where
  literal _ := steps.nil
  reference table name := by
    cases table with
    | none =>
      exact steps.cons (steps.text name) (steps.touching .dot (by simp))
    | some table =>
      exact steps.cons (steps.text table) (steps.cons (steps.mark (by decide)) (steps.text name))
  -- What is an expression only has no slots as a source.
  call _ _ _ := steps.nil
  range _ _ _ _ := steps.nil
  list _ _ := steps.nil
  case _ _ _ _ _ _ := steps.nil
  binary _ _ _ _ _ _ := steps.nil
  unary _ _ _ := steps.nil
  parens inner held :=
    steps.append (steps.cons (steps.mark (by decide)) (steps.padSource inner held))
      (steps.mark (by decide))
  aliasAs inner name named := by
    refine steps.append named (steps.cons steps.gap (steps.cons (steps.keyword _) ?_))
    exact steps.cons steps.gap (steps.text name)
  aliasBare inner name named :=
    steps.append named (steps.cons steps.gap (steps.text name))
  join kind left right condition before after _ := by
    have under := steps.conditionClause .on condition
    -- A join is built from the left: its left side, its words, its right side, its condition.
    have words := steps.keywords (kind.keywords ++ [.join])
    have first := steps.append (steps.append before (steps.memberEnd left))
      (steps.cons steps.gap words)
    have second := steps.append (steps.append first (steps.cons steps.gap after))
      (steps.memberEnd right)
    exact steps.append second (steps.cons steps.gap under)
  subscript _ _ _ _ := steps.nil
  cast _ _ _ _ := steps.nil
  select _ inside := inside
  statement distinct projections sources filter groupBy orderBy limit offset
      _ members _ _ _ _ _ := by
    -- A statement is built from the right, clause by clause, up to its front.
    have last := steps.append (steps.countClause .limit limit) (steps.countClause .offset offset)
    have ordered : F (clauseSlots .order (orderBy.map fun keys =>
        byListSlots (keys.map SortKey.slots))) :=
      steps.clause _ fun _ _ => steps.byList fun key _ => steps.sortKey key
    have grouped : F (clauseSlots .group (groupBy.map fun items =>
        byListSlots (items.map (Node.padded .expression)))) :=
      steps.clause _ fun _ _ => steps.byList fun node _ => steps.pad _ _ (steps.spelling node)
    have filtered := steps.conditionClause .where_ filter
    have given : F (clauseSlots .from_ (sources.map fun nodes =>
        SelectSql.commaSlots noComma (nodes.map Node.paddedSource))) := by
      apply steps.clause
      intro nodes held
      apply steps.commaSlots _ steps.noComma
      exact fun node among => steps.padSource node (members nodes held node among)
    have clauses := steps.append given (steps.append filtered (steps.append grouped
      (steps.append ordered last)))
    have whole := steps.append (steps.front distinct projections) clauses
    rw [Select.slots_eq]
    simpa using whole

/-- The spelling of every statement is reached. -/
theorem statement (steps : StatementSteps F) (statement : Select) : F statement.slots :=
  steps.tree.whole statement

end StatementSteps

section Heeding

variable {marks : List Mark}

/-- Of the marks that touch an expression only a parenthesis and a point are heeded. -/
private theorem heeds_steps (paren : Mark.openParen ∈ marks) (point : Mark.dot ∈ marks) :
    ExpressionSteps fun slots => ∀ slot ∈ slots, slot.Heeds marks where
  nil := by simp
  append first second := List.forall_mem_append.2 ⟨first, second⟩
  token solid _ := by simpa [Slot.Heeds] using solid
  comma := by simp [Slot.Heeds]
  gap := by simp [Slot.Heeds]
  blank := by simp [Slot.Heeds]
  takes := by simp [Slot.Heeds]
  apart := by simp [Slot.Heeds]
  name := by
    simp only [List.mem_singleton, forall_eq, Slot.Heeds, Lexeme.extendsName, Bool.or_eq_true,
      beq_iff_eq]
    rintro lexeme (rfl | rfl)
    · exact ⟨_, paren, rfl⟩
    · exact ⟨_, point, rfl⟩

/-- Of the marks that touch a statement a comma is heeded as well. -/
private theorem heeds_all :
    StatementSteps fun slots => ∀ slot ∈ slots, slot.Heeds [.openParen, .dot, .comma] where
  toExpressionSteps := heeds_steps (by simp) (by simp)
  separator := by simp [Slot.Heeds]
  source := by simp [Slot.Heeds]
  member := by simp [Slot.Heeds]
  key := by simp [Slot.Heeds]
  touching := by simp [Slot.Heeds]
  bare distinct := by cases distinct <;> simp [projectionSlots, Slot.Heeds]

/-- A parenthesis and a point are all that an expression heeds when they touch it. -/
theorem Node.heeds (node : Node) : ∀ slot ∈ node.spelling, slot.Heeds [.openParen, .dot] :=
  -- An expression has no commas outside its lists, where they do not touch.
  (heeds_steps (by simp) (by simp)).spelling node

/-- A parenthesis, a point and a comma are all that a source heeds. -/
theorem Node.heeds_source (node : Node) :
    ∀ slot ∈ node.paddedSource, slot.Heeds [.openParen, .dot, .comma] :=
  heeds_all.padSource node (heeds_all.tree.node node)

/-- A parenthesis, a point and a comma are all that a statement heeds. -/
theorem Select.heeds (statement : Select) :
    ∀ slot ∈ statement.slots, slot.Heeds [.openParen, .dot, .comma] :=
  heeds_all.statement statement

end Heeding

end SelectSql
