import SelectSql.Proofs.Printing.Statement
import SelectSql.Proofs.Spelling.Ahead
import SelectSql.Proofs.Spelling.Settled

/-!
What may follow. A comma, a closing parenthesis and the word of a later clause end whatever stands
before them, so every look ahead of a statement passes if its front is told apart.
-/

namespace SelectSql

variable {slots others ending : List Slot} {items : List (List Slot)} {lexeme : Lexeme}
  {lexemes : List Lexeme} {next : Option Lexeme} {node : Node} {tier : Tier}

section Endings

/-- Whether a lexeme ends every expression before it, with white space between them or not. -/
def Lexeme.endsExpression : Lexeme → Bool
  -- White space must follow a `CASE`, which therefore settles nothing.
  | symbol terminal =>
    (symbol terminal).joins?.isNone && !(symbol terminal).extendsName && terminal != .keyword .case
  | _ => false

/-- A symbol that ends expressions joins nothing and suits any white space. -/
theorem Lexeme.of_endsExpression {terminal : Terminal}
    (ends : (Lexeme.symbol terminal).endsExpression = true) :
    (Lexeme.symbol terminal).joins? = none ∧ (Lexeme.symbol terminal).extendsName = false ∧
      ∀ rest, (Lexeme.symbol terminal).Suits rest := by
  simp only [Lexeme.endsExpression, Bool.and_eq_true, Option.isNone_iff_eq_none,
    Bool.not_eq_true', bne_iff_ne] at ends
  obtain ⟨⟨joins, other⟩, apart⟩ := ends
  refine ⟨joins, other, fun rest => ?_⟩
  -- Only a point and a `CASE` ask for something, and neither ends an expression.
  cases terminal with
  | keyword word => cases word <;> trivial
  | mark sign => cases sign <;> trivial

/-- Whether a lexeme ends whatever stands before it in a clause. -/
def Lexeme.closes (lexeme : Lexeme) : Bool :=
  lexeme ∈ [Lexeme.mark .comma, .mark .closeParen, .keyword .from_, .keyword .where_,
    .keyword .group, .keyword .order, .keyword .limit, .keyword .offset]

/-- Whether a lexeme ends a source, as the words of a join do as well. -/
def Lexeme.endsSource (lexeme : Lexeme) : Bool :=
  lexeme.closes || lexeme.joinKind?.isSome

/-- What ends a source ends an expression, and neither names the source nor is its condition. -/
theorem Lexeme.of_endsSource (ends : lexeme.endsSource = true) :
    lexeme.endsExpression = true ∧ lexeme.namesSource = false ∧ lexeme ≠ .keyword .on := by
  -- There are eight lexemes that close, and six words that begin a join.
  rw [Lexeme.endsSource, Bool.or_eq_true] at ends
  rcases ends with closes | joins
  · simp only [Lexeme.closes, List.mem_cons, List.not_mem_nil, or_false, decide_eq_true_eq]
      at closes
    rcases closes with rfl | rfl | rfl | rfl | rfl | rfl | rfl | rfl <;>
      exact ⟨rfl, rfl, by decide⟩
  · unfold Lexeme.joinKind? at joins
    split at joins
    all_goals first | exact ⟨rfl, rfl, by decide⟩ | cases joins

/-- What closes ends expressions and sources, and neither begins a join nor gives a name. -/
theorem Lexeme.of_closes (closes : lexeme.closes = true) :
    lexeme.endsExpression = true ∧ lexeme.endsSource = true ∧ lexeme.joinKind?.isSome = false ∧
      lexeme ≠ .keyword .as := by
  simp only [Lexeme.closes, List.mem_cons, List.not_mem_nil, or_false, decide_eq_true_eq] at closes
  rcases closes with rfl | rfl | rfl | rfl | rfl | rfl | rfl | rfl <;>
    exact ⟨rfl, rfl, rfl, by decide⟩

end Endings

section Expressions

/-- Slots that are sure pass if their lexemes can be spaced in some way that suits them. -/
theorem Sure.passes (sure : Sure slots) (filled : fill (plain slots) lexemes = some []) :
    Passes none slots := by
  have same : strip lexemes = solids slots := by
    have taken := strip_of_fill filled
    rwa [solids_plain, strip_nil, List.append_nil] at taken
  -- That the lexemes are spaced well is all that sure slots ask for.
  obtain ⟨fills, spaced⟩ := sure lexemes same
  exact passes_of_fill (fills (spaced filled))

/-- Every look of an expression passes before a lexeme that ends it, and at the end. -/
theorem Formed.passes (formed : Formed tier node)
    (ends : ∀ lexeme ∈ next, lexeme.endsExpression = true) : Passes next node.spelling := by
  -- The printed form shows that the lexemes can be spaced in a way that suits them.
  have prints := formed.prints .inline .top
  cases next with
  | none =>
    have sure := formed.settles [] nofun Sure.done
    have printed : Fits (.gap :: (node.spelling ++ .gap :: [])) (node.pieces .inline .top ++ []) :=
      prints.followed nofun Fits.done
    have passes := sure.passes printed.filled
    simpa using passes
  | some lexeme =>
    -- What comes next is put after the expression, so that its looks see it there.
    obtain ⟨terminal, rfl⟩ : ∃ terminal, lexeme = .symbol terminal := by
      have ends := ends lexeme rfl
      cases lexeme with
      | symbol terminal => exact ⟨terminal, rfl⟩
      | _ => cases ends
    obtain ⟨joins, other, free⟩ := Lexeme.of_endsExpression (ends _ rfl)
    have sure := formed.settles [.token (.symbol terminal), .gap] (clear_symbol joins other)
      (Sure.symbol free Sure.done)
    have last : Fits [.gap, .token (.symbol terminal), .gap] [.symbol terminal] :=
      Fits.last (.symbol terminal) trivial rfl nofun Fits.done
    have printed := prints.followed (breaks_blank rfl) last.space
    have passes := sure.passes printed.filled
    simpa using passes

/-- Every look of an expression passes with the white space around it as well. -/
theorem Formed.passes_padded (formed : Formed .expression node)
    (ends : ∀ lexeme ∈ next, lexeme.endsExpression = true) :
    Passes next (node.padded .expression) := by
  have inner := formed.passes ends
  have untaken : ∀ lexeme ∈ next, node.takes .expression lexeme = false := by
    intro lexeme first
    have ends := ends lexeme first
    cases lexeme with
    | symbol terminal =>
      obtain ⟨joins, _⟩ := Lexeme.of_endsExpression ends
      simp [Node.takes, joins]
    | _ => cases ends
  simpa [Node.padded, pad] using ⟨inner, untaken⟩

/-- An expression is seen by its first lexeme. -/
theorem Formed.ahead_padded (formed : Formed .expression node) :
    ahead next (node.padded .expression) = some node.first := by
  obtain ⟨slots, shape⟩ := formed.spelling_eq
  rw [Node.padded, pad, shape]
  exact ahead_token formed.first_ne_space

end Expressions

section Lists

/-- Items with commas between them pass if each does, before a comma or at the end. -/
theorem passes_commaSlots (before : ∀ item ∈ items, Passes (some (.mark .comma)) item)
    (last : ∀ item ∈ items.getLast?, Passes (ahead next ending) item) (ends : Passes next ending) :
    Passes next (commaSlots ending items) := by
  fun_induction commaSlots ending items with
  | case1 => trivial
  | case2 item => exact passes_append.2 ⟨last item rfl, ends⟩
  | case3 item other items ih =>
    have rest := ih (fun item member => before item (List.mem_cons_of_mem _ member))
      (by simpa using last)
    simpa using ⟨before item (by simp), rest⟩

/-- A list passes if each of its items does before whatever closes, and no comma comes next. -/
theorem passes_list
    (each : ∀ item ∈ items, ∀ next : Option Lexeme, (∀ lexeme ∈ next, lexeme.closes = true) →
      Passes next item)
    (closes : ∀ lexeme ∈ next, lexeme.closes = true ∧ lexeme ≠ .mark .comma) :
    Passes next (commaSlots noComma items) := by
  apply passes_commaSlots
  · intro item member
    exact each item member _ (by simp [Lexeme.closes])
  · intro item last
    exact each item (List.mem_of_getLast? last) _ fun lexeme first => (closes lexeme first).1
  · simpa [noComma] using fun lexeme first => (closes lexeme first).2

/-- A list after `BY` passes as the list does. -/
theorem passes_byList
    (each : ∀ item ∈ items, ∀ next : Option Lexeme, (∀ lexeme ∈ next, lexeme.closes = true) →
      Passes next item)
    (closes : ∀ lexeme ∈ next, lexeme.closes = true ∧ lexeme ≠ .mark .comma) :
    Passes next (byListSlots items) :=
  passes_list each closes

end Lists

section Clauses

/-- Slots that pass and begin with one of some words, unless a parenthesis or nothing comes next. -/
structure Tail (words : List Keyword) (next : Option Lexeme) (slots : List Slot) : Prop where
  /-- What the slots begin with. -/
  begins : ∀ lexeme ∈ ahead next slots, lexeme = .mark .closeParen ∨
    ∃ word ∈ words, lexeme = .keyword word
  /-- Every look ahead passes. -/
  passes : Passes next slots

/-- The words of clauses and a parenthesis close, and no comma is among them. -/
theorem Tail.closes {words : List Keyword} (tail : Tail words next slots)
    (closing : (words.all fun word => (Lexeme.keyword word).closes) = true) :
    ∀ lexeme ∈ ahead next slots, lexeme.closes = true ∧ lexeme ≠ .mark .comma := by
  rw [List.all_eq_true] at closing
  intro lexeme first
  rcases tail.begins lexeme first with rfl | ⟨word, member, rfl⟩
  · exact ⟨rfl, by simp⟩
  · exact ⟨closing word member, by simp⟩

/-- A clause that may be absent comes before the later ones. -/
theorem Tail.clause {words : List Keyword} {α : Type} {each : α → List Slot}
    (tail : Tail words next slots) (word : Keyword) (content : Option α)
    (closing : (words.all fun word => (Lexeme.keyword word).closes) = true) (apart : word ∉ words)
    (inner : ∀ item ∈ content, ∀ next : Option Lexeme,
      (∀ lexeme ∈ next, lexeme.closes = true ∧ lexeme ≠ .mark .comma) → Passes next (each item)) :
    Tail (word :: words) next (clauseSlots word (content.map each) ++ slots) := by
  cases content with
  | none =>
    -- Nothing is taken, and the word must not follow: the later clauses do not begin with it.
    refine ⟨?_, ?_⟩
    · intro lexeme first
      rcases tail.begins lexeme first with same | ⟨other, member, same⟩
      · exact Or.inl same
      · exact Or.inr ⟨other, List.mem_cons_of_mem _ member, same⟩
    · refine passes_append.2 ⟨⟨?_, trivial⟩, tail.passes⟩
      intro lexeme first
      rw [beq_eq_false_iff_ne]
      rcases tail.begins lexeme first with rfl | ⟨other, member, rfl⟩
      · simp
      · rintro same
        cases same
        exact apart member
  | some item =>
    -- The word is taken first, and the content ends where the later clauses begin.
    refine ⟨?_, ?_⟩
    · intro lexeme first
      rw [Option.map_some, clauseSlots, List.cons_append, ahead_symbol] at first
      exact Or.inr ⟨word, by simp, (Option.some.inj first).symm⟩
    · exact passes_append.2 ⟨inner item rfl _ (tail.closes closing), tail.passes⟩

end Clauses

section Keys

/-- Keywords in a row look at nothing. -/
theorem passes_keywordSlots (words : List Keyword) : Passes next (keywordSlots words) := by
  fun_induction keywordSlots words with
  | case1 => trivial
  | case2 word => trivial
  | case3 word other words ih => exact ih

/-- The modifiers of a sort key look at nothing, and the first of them ends an expression. -/
private theorem passes_options (options : List SortOption) :
    let slots := options.flatMap fun option => keywordSlots option.keywords ++ [.gap]
    Passes next slots ∧ ((∀ lexeme ∈ next, lexeme.endsExpression = true) →
      ∀ lexeme ∈ ahead next slots, lexeme.endsExpression = true) := by
  induction options with
  | nil => exact ⟨trivial, id⟩
  | cons option options ih =>
    refine ⟨?_, ?_⟩
    · rw [List.flatMap_cons]
      exact passes_append.2 ⟨passes_append.2 ⟨passes_keywordSlots _, trivial⟩, ih.1⟩
    · intro _ lexeme first
      cases option <;> cases first <;> rfl

/-- A sort key passes before whatever closes. -/
theorem SortKey.passes {key : SortKey} (formed : Formed .expression key.key)
    (closes : ∀ lexeme ∈ next, lexeme.closes = true) : Passes next key.slots := by
  have ends : ∀ lexeme ∈ next, lexeme.endsExpression = true := fun lexeme first =>
    (Lexeme.of_closes (closes lexeme first)).1
  obtain ⟨modifiers, front⟩ := @passes_options next key.options
  have done : ∀ lexeme ∈ next, SortOption.goesOn key.options lexeme = false := by
    intro lexeme first
    have closes := closes lexeme first
    simp only [Lexeme.closes, List.mem_cons, List.not_mem_nil, or_false, decide_eq_true_eq]
      at closes
    rcases closes with rfl | rfl | rfl | rfl | rfl | rfl | rfl | rfl <;>
      simp [SortOption.goesOn, Lexeme.direction?]
  rw [SortKey.slots, passes_append, passes_append]
  exact ⟨⟨formed.passes_padded (front ends), modifiers⟩, done, trivial⟩

end Keys

section Sources

/-- The end of a member takes nothing, and passes before what is no name. -/
theorem passes_memberEnd (unnamed : ∀ lexeme ∈ next, lexeme.namesSource = false) :
    Passes next node.memberEnd ∧ ahead next node.memberEnd = next := by
  unfold Node.memberEnd
  split <;> first | exact ⟨⟨unnamed, trivial⟩, rfl⟩ | exact ⟨trivial, rfl⟩

/-- The words of a join begin with one that ends the source before it. -/
theorem ahead_joinWords (kind : JoinKind) : ∀ lexeme ∈
    ahead next (keywordSlots (kind.keywords ++ [.join])), lexeme.endsSource = true := by
  intro lexeme first
  cases kind <;> cases first <;> rfl

/-- The condition of a join passes before what ends sources, and is no name. -/
theorem passes_condition {condition : Option Node}
    (under : ∀ node ∈ condition, Formed .expression node)
    (ends : ∀ lexeme ∈ next, lexeme.endsSource = true) :
    Passes next (clauseSlots .on (condition.map (Node.padded .expression))) ∧
      ∀ lexeme ∈ ahead next (clauseSlots .on (condition.map (Node.padded .expression))),
        lexeme.namesSource = false := by
  have ends := fun lexeme first => Lexeme.of_endsSource (ends lexeme first)
  cases condition with
  | none =>
    -- Without a condition what ends the sources comes next, and that is no `ON`.
    refine ⟨⟨?_, trivial⟩, fun lexeme first => (ends lexeme first).2.1⟩
    intro lexeme first
    rw [beq_eq_false_iff_ne]
    exact (ends lexeme first).2.2
  | some node =>
    refine ⟨(under node rfl).passes_padded fun lexeme first => (ends lexeme first).1, ?_⟩
    intro lexeme first
    cases first
    rfl

/-- Sources under a join pass before what ends sources. -/
theorem passes_join {kind : JoinKind} {left right : Node} {condition : Option Node}
    (before : ∀ next, (∀ lexeme ∈ next, Lexeme.endsSource lexeme = true) →
      Passes next left.sourceSlots)
    (after : ∀ next, Passes next right.sourceSlots)
    (under : ∀ node ∈ condition, Formed .expression node)
    (ends : ∀ lexeme ∈ next, lexeme.endsSource = true) :
    Passes next (Node.join kind left right condition).sourceSlots := by
  obtain ⟨last, unnamed⟩ := passes_condition under ends
  have words := fun next => @ahead_joinWords next kind
  -- The left side ends at the words of the join, the right side at the condition or after it.
  rw [Node.sourceSlots]
  simp only [passes_append, passes_gap, ahead_gap]
  refine ⟨⟨⟨⟨⟨?_, ?_⟩, passes_keywordSlots _⟩, after _⟩, (passes_memberEnd unnamed).1⟩, last⟩
  · rw [(passes_memberEnd fun lexeme first =>
      (Lexeme.of_endsSource (words _ lexeme first)).2.1).2]
    exact before _ (words _)
  · exact (passes_memberEnd fun lexeme first =>
      (Lexeme.of_endsSource (words _ lexeme first)).2.1).1

/-- A source passes with the white space around it, before what closes. -/
theorem passes_padSource (inner : Passes next slots)
    (closes : ∀ lexeme ∈ next, lexeme.closes = true) : Passes next (padSource node slots) := by
  have closes := fun lexeme first => Lexeme.of_closes (closes lexeme first)
  obtain ⟨named, seen⟩ := @passes_memberEnd next node fun lexeme first =>
    (Lexeme.of_endsSource (closes lexeme first).2.1).2.1
  simpa [padSource, seen] using
    And.intro inner (And.intro named fun lexeme first => (closes lexeme first).2.2.1)

/-- A source between parentheses passes before anything. -/
theorem passes_parens (inner : Passes (some (.mark .closeParen)) node.sourceSlots) :
    Passes next (Node.parens node).sourceSlots := by
  -- Inside the parentheses the closing one comes next.
  have padded : Passes (some (.mark .closeParen)) (padSource node node.sourceSlots) :=
    passes_padSource inner (by simp [Lexeme.closes])
  simpa [Node.sourceSlots] using padded

end Sources

section Statements

/-- What tells the front of a statement from other readings of it. -/
structure Select.Told (statement : Select) : Prop where
  /-- Where rows may repeat, the first projection does not begin with a `DISTINCT` of its own. -/
  repeated : statement.distinct = false → ∀ items ∈ statement.projections,
    ∀ node ∈ items.head?, node.unnamed.leading ≠ some .distinct
  /-- Where there are no projections, sources or a condition follow. -/
  followed : statement.projections = none →
    statement.sources.isSome = true ∨ statement.filter.isSome = true

variable {nodes : List Node}

/-- An expression is a projection without a name. -/
theorem Formed.unnamed_eq (formed : Formed .expression node) : node.unnamed = node := by
  unfold Node.unnamed
  split
  · rename_i inner name
    exact absurd rfl (formed.ne_aliasAs inner name)
  · rfl

/-- A projection is an expression, named or not. -/
theorem Projected.unnamed (projected : Projected node) : Formed .expression node.unnamed := by
  cases projected with
  | plain formed =>
    rw [formed.unnamed_eq]
    exact formed
  | named formed _ => exact formed

/-- A projection is seen by the first lexeme of its expression. -/
theorem Projected.ahead_eq (projected : Projected node) :
    ahead next node.projectionSlots = some node.unnamed.first := by
  cases projected with
  | plain formed =>
    rw [formed.projectionSlots_eq.1, ahead_append, formed.ahead_padded, formed.unnamed_eq]
  | named formed _ =>
    rw [Node.projectionSlots, ahead_append, formed.ahead_padded]
    rfl

/-- A projection passes before whatever closes. -/
theorem Projected.passes (projected : Projected node)
    (closes : ∀ lexeme ∈ next, lexeme.closes = true) : Passes next node.projectionSlots := by
  cases projected with
  | plain formed =>
    have inner := formed.passes_padded fun lexeme first =>
      (Lexeme.of_closes (closes lexeme first)).1
    rw [formed.projectionSlots_eq.1]
    simpa using ⟨inner, fun lexeme first => (Lexeme.of_closes (closes lexeme first)).2.2.2⟩
  | @named _ name formed _ =>
    -- The expression ends at the `AS`, and after the name nothing is looked at.
    have word : ∀ lexeme ∈ some (Lexeme.keyword .as), lexeme.endsExpression = true := by
      simp only [Option.mem_def, Option.some.injEq, forall_eq']
      rfl
    have inner := formed.passes_padded word
    simpa [Node.projectionSlots] using inner

/-- Projections pass before the word of a clause. -/
theorem passes_projections (each : ∀ node ∈ nodes, Projected node)
    (closes : ∀ lexeme ∈ next, lexeme.closes = true ∧ lexeme ≠ .mark .comma) :
    Passes next (projectionSlots (some nodes)) := by
  have last : ∀ node ∈ nodes.getLast?, Passes next node.projectionEnd ∧
      ahead next node.projectionEnd = next := by
    intro node member
    unfold Node.projectionEnd
    split
    · exact ⟨trivial, rfl⟩
    · refine ⟨?_, rfl⟩
      simpa [noComma] using fun lexeme first => (closes lexeme first).2
  rw [projectionSlots, passes_append]
  refine ⟨?_, trivial⟩
  -- All projections but the last stand before a comma.
  apply passes_commaSlots
  · rw [List.forall_mem_map]
    intro node member
    exact (each node member).passes (by simp [Lexeme.closes])
  · intro item ends
    rw [List.getLast?_map] at ends
    obtain ⟨node, final, rfl⟩ := Option.map_eq_some_iff.1 ends
    rw [final, Option.map_some, Option.getD_some, ahead_gap, ahead_nil, (last node final).2]
    exact (each node (List.mem_of_getLast? final)).passes fun lexeme first =>
      (closes lexeme first).1
  · cases ends : nodes.getLast? with
    | none => trivial
    | some node => exact (last node ends).1

/-- Projections are seen by the first of them. -/
theorem ahead_projections {first : Node} (projected : Projected first) :
    ahead next (projectionSlots (some (first :: nodes))) = some first.unnamed.first := by
  cases nodes with
  | nil => simp [projectionSlots, commaSlots, projected.ahead_eq]
  | cons other nodes => simp [projectionSlots, commaSlots, projected.ahead_eq]

/-- The front of a statement passes before the word of a clause. -/
theorem passes_front {statement : Select} (told : statement.Told)
    (each : ∀ items ∈ statement.projections, items ≠ [] ∧ ∀ item ∈ items, Projected item)
    (closes : ∀ lexeme ∈ next, lexeme.closes = true ∧ lexeme ≠ .mark .comma)
    (follows : statement.projections = none →
      ∀ lexeme ∈ next, lexeme = .keyword .from_ ∨ lexeme = .keyword .where_) :
    Passes next ((if statement.distinct then [.keyword .distinct]
        else [.notBefore (· == .keyword .distinct)]) ++
      .gap :: projectionSlots statement.projections) := by
  have words : ∀ seen : Option Lexeme,
      (statement.distinct = false → seen ≠ some (.keyword .distinct)) →
      Passes seen (if statement.distinct then [.keyword .distinct]
        else [.notBefore (· == .keyword .distinct)]) := by
    intro seen apart
    cases distinct : statement.distinct with
    | true => trivial
    | false =>
      have other := apart distinct
      refine ⟨?_, trivial⟩
      rintro lexeme first
      rw [beq_eq_false_iff_ne]
      rintro rfl
      exact other first
  rw [passes_append, passes_gap]
  cases given : statement.projections with
  | none =>
    -- The word of a clause comes right after the front, and it is no `DISTINCT`.
    refine ⟨words _ fun _ first => ?_, ?_, trivial⟩
    · rcases follows given _ first with same | same <;> cases same
    · intro lexeme first
      rcases follows given lexeme first with rfl | rfl <;> rfl
  | some nodes =>
    obtain ⟨nonempty, each⟩ := each nodes given
    obtain ⟨first, rest, rfl⟩ := List.exists_cons_of_ne_nil nonempty
    have projected := each first (by simp)
    refine ⟨words _ fun repeated => ?_, passes_projections each closes⟩
    -- An expression that begins with the keyword begins with the operator of that name.
    rw [ahead_gap, ahead_projections projected]
    intro same
    have leading := projected.unnamed.unaryOp?_first
    rw [Option.some.inj same] at leading
    exact told.repeated repeated _ given first rfl leading.symm

/-- A statement passes before a closing parenthesis and at the end, if its sources pass. -/
theorem passes_select {statement : Select} (formed : SelectFormed statement) (told : statement.Told)
    (members : ∀ items ∈ statement.sources, ∀ item ∈ items, ∀ next : Option Lexeme,
      (∀ lexeme ∈ next, lexeme.closes = true) → Passes next item.paddedSource)
    (closing : ∀ lexeme ∈ next, lexeme = .mark .closeParen) : Passes next statement.slots := by
  obtain ⟨projected, _, _, filtered, grouped, ordered, limited, skipped⟩ := formed
  have expression : ∀ node : Node, Formed .expression node → ∀ next : Option Lexeme,
      (∀ lexeme ∈ next, lexeme.closes = true) → Passes next (node.padded .expression) :=
    fun node formed next closes => formed.passes_padded fun lexeme first =>
      (Lexeme.of_closes (closes lexeme first)).1
  have count : ∀ node : Node, Formed .atom node → ∀ next : Option Lexeme,
      (∀ lexeme ∈ next, lexeme.closes = true ∧ lexeme ≠ .mark .comma) →
      Passes next (rowCountSlots node) := by
    intro node formed next closes
    have inner := formed.passes fun lexeme first => (Lexeme.of_closes (closes lexeme first).1).1
    simpa [rowCountSlots] using inner
  -- The clauses are added from the last to the first, each with the later ones next.
  have done : Tail [] next [] := ⟨fun lexeme first => Or.inl (closing lexeme first), trivial⟩
  have offset := done.clause .offset statement.offset rfl (by simp) fun node member =>
    count node (skipped node member)
  rw [List.append_nil] at offset
  have limit := offset.clause .limit statement.limit rfl (by simp) fun node member =>
    count node (limited node member)
  have order := limit.clause .order statement.orderBy rfl (by simp) fun keys member next closes =>
    passes_byList (List.forall_mem_map.2 fun key among next closes =>
      SortKey.passes ((ordered keys member).2 key among).1 closes) closes
  have group := order.clause .group statement.groupBy rfl (by simp) fun items member next closes =>
    passes_byList (List.forall_mem_map.2 fun node among =>
      expression node ((grouped items member).2 node among)) closes
  have where_ := group.clause .where_ statement.filter rfl (by simp) fun node member next closes =>
    expression node (filtered node member) next fun lexeme first => (closes lexeme first).1
  have from_ := where_.clause .from_ statement.sources rfl (by simp) fun items member next closes =>
    passes_list (List.forall_mem_map.2 (members items member)) closes
  -- Without projections the first word is that of the sources or that of the condition.
  have front := passes_front told projected (from_.closes rfl) fun absent lexeme first => by
    rcases told.followed absent with given | given
    · obtain ⟨items, given⟩ := Option.isSome_iff_exists.1 given
      rw [given] at first
      exact Or.inl (Option.some.inj first).symm
    · obtain ⟨node, given⟩ := Option.isSome_iff_exists.1 given
      rw [given] at first
      cases sources : statement.sources with
      | none =>
        rw [sources] at first
        exact Or.inr (Option.some.inj first).symm
      | some items =>
        rw [sources] at first
        exact Or.inl (Option.some.inj first).symm
  rw [Select.slots_eq, passes_token, passes_gap, ← List.cons_append, ← List.append_assoc]
  exact passes_append.2 ⟨front, from_.passes⟩

end Statements

end SelectSql
