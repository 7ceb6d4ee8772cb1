import SelectSql.Grammar.Nesting
import SelectSql.Grammar.Spending

/-!
The bound on nesting is never felt. Every rule takes a token of text before it calls a nested rule,
so a bound above the number of tokens left lasts to the end, even if white space does not count.
-/

namespace SelectSql.Grammar

variable {σ : Type} [TokenStream σ]

open Parsing

/-- Nested rules that last while less than `bound` is left, each taking a token. -/
structure Rules.Last (gauge : Gauge σ) (inner : Rules σ) (bound : Nat) : Prop where
  /-- Lists may have as many items. -/
  room : bound ≤ inner.bound
  /-- Expressions last. -/
  expression : SpendsBy gauge bound 1 inner.expression
  /-- Operands last. -/
  operand : SpendsBy gauge bound 1 inner.operand
  /-- Sources last. -/
  source : SpendsBy gauge bound 1 inner.source

variable {gauge : Gauge σ} {inner : Rules σ} {bound : Nat}

/-- Rules that last while much is left last while less is. -/
theorem Rules.Last.weaken {smaller : Nat} (lasting : inner.Last gauge bound)
    (bounded : smaller ≤ bound) : inner.Last gauge smaller where
  room := Nat.le_trans bounded lasting.room
  expression := lasting.expression.weaken bounded (Nat.le_refl _)
  operand := lasting.operand.weaken bounded (Nat.le_refl _)
  source := lasting.source.weaken bounded (Nat.le_refl _)

/-- Arguments may be absent and so take nothing. -/
theorem arguments_spends (lasting : inner.Last gauge bound) :
    SpendsBy gauge bound 0 (arguments inner) := by
  -- Looking for the closing mark is free, and a list takes more than nothing.
  refine (SpendsBy.skipSpace _).bind fun _ => (SpendsBy.peek _).bind fun token => ?_
  split
  · exact SpendsBy.pure rfl
  · exact (SpendsBy.separated lasting.expression lasting.room).weaken (Nat.le_refl _) (by omega)

/-- What follows a name may be nothing. -/
theorem named_spends (lasting : inner.Last gauge bound) (name : String) :
    SpendsBy gauge bound 0 (named inner name) := by
  -- Each form begins with a mark, which pays for what is nested in it.
  refine SpendsBy.eatMark_bind ?_ (SpendsBy.eatMark_bind ?_ (SpendsBy.pure rfl))
  · exact (SpendsBy.closedBy (arguments_spends (lasting.weaken (by omega)))).bind fun _ =>
      SpendsBy.pure (by omega)
  · refine (SpendsBy.require fun token thin => ?_).bind fun _ => SpendsBy.pure (by omega)
    have unmarked := isMark_of_not_isSolid .star thin
    rcases token.kind_of_not_isSolid thin with kind | kind <;> simp [unmarked, kind]

/-- One branch, and whether a `WHEN` announces another. -/
def branchLap (inner : Rules σ) : Parsing σ (Branch × Bool) := do
  -- This is what one round of reading branches takes.
  let condition ← inner.expression
  requireKeyword .then_
  let result ← inner.expression
  let more ← eatKeyword .when
  return (⟨condition, result⟩, more)

/-- Reading branches goes round once for each of them. -/
theorem branches_succ (most : Nat) :
    branches inner (most + 1) = branchLap inner >>= fun lap =>
      if lap.2 then branches inner most >>= fun others => pure (lap.1 :: others)
      else pure [lap.1] := by
  -- The `WHEN` is taken with the branch before it.
  simp only [branches, branchLap, bind_assoc, pure_bind]

/-- Each branch takes its `THEN` and the expressions around it. -/
theorem branchLap_spends (lasting : inner.Last gauge bound) :
    SpendsBy gauge bound 3 (branchLap inner) := by
  -- The `WHEN` after the branch may be absent.
  refine lasting.expression.bind fun condition => ?_
  refine (SpendsBy.requireKeyword _ _).bind fun _ => ?_
  refine (lasting.expression.weaken (by omega) (Nat.le_refl _)).bind fun result => ?_
  exact SpendsBy.eatKeyword_bind (SpendsBy.pure (by omega)) (SpendsBy.pure (by omega))

/-- Each branch takes something, so the bound on branches lasts. -/
theorem branches_spends {most : Nat} (lasting : inner.Last gauge bound) (room : bound ≤ most) :
    SpendsBy gauge bound 0 (branches inner most) := by
  -- With no bound left there are no unread tokens to give up on.
  induction most generalizing bound with
  | zero =>
    obtain rfl : bound = 0 := by omega
    exact SpendsBy.zero _ _
  | succ most ih =>
    -- One branch pays for the step to the next.
    rw [branches_succ]
    refine (branchLap_spends lasting).bind fun lap => ?_
    split
    · exact (ih (lasting.weaken (by omega)) (by omega)).bind fun _ => SpendsBy.pure (by omega)
    · exact SpendsBy.pure (by omega)

/-- A subject may be absent and so takes nothing. -/
theorem subject?_spends (lasting : inner.Last gauge bound) :
    SpendsBy gauge bound 0 (subject? inner) := by
  -- Looking for the `WHEN` is free.
  refine (SpendsBy.peek _).bind fun token => ?_
  split
  · exact SpendsBy.pure rfl
  · exact (lasting.expression.weaken (by omega) (by omega)).reshape

/-- A choice need take nothing after its `CASE`, which has paid for what is nested. -/
theorem choice_spends (lasting : inner.Last gauge bound) :
    SpendsBy gauge bound 0 (choice inner) := by
  -- White space is required here and need not count.
  refine SpendsBy.require_free.bind fun _ => ?_
  refine (subject?_spends lasting).bind fun subject => ?_
  refine (SpendsBy.requireKeyword _ _).bind fun _ => ?_
  refine (branches_spends (lasting.weaken (by omega))
    (Nat.le_trans (by omega) lasting.room)).bind fun branches => ?_
  refine (SpendsBy.after?
    (lasting.expression.weaken (by omega) (by omega))).bind fun otherwise => ?_
  exact (SpendsBy.requireKeyword _ _).bind fun _ => SpendsBy.pure (by omega)

/-- An atom takes a token, after which nested rules have one fewer to read. -/
theorem atom_spends (lasting : inner.Last gauge bound) :
    SpendsBy gauge (bound + 1) 1 (atom inner) := by
  -- The token taken first is the one by which the nested bound is smaller.
  refine SpendsBy.next_bind (fun token _ => ?_) (fun token thin => ?_)
  · -- Each category continues with the nested rules or stops.
    simp only [Nat.add_sub_cancel]
    split
    · exact SpendsBy.pure rfl
    · exact named_spends lasting _
    · exact SpendsBy.pure rfl
    · exact choice_spends lasting
    · split
      · exact SpendsBy.pure rfl
      split
      · exact (SpendsBy.closedBy (lasting.expression.weaken (Nat.le_refl _) (Nat.zero_le _))).bind
          fun _ => SpendsBy.pure (by omega)
      · exact SpendsBy.unexpected
    · exact SpendsBy.unexpected
  · -- Neither white space nor the end of input starts an atom.
    rcases token.kind_of_not_isSolid thin with kind | kind <;>
    · simp only [kind]
      exact SpendsBy.unexpected

/-- An index takes nothing if it is absent. -/
theorem subscripted_spends (lasting : inner.Last gauge bound) (value : Node) :
    SpendsBy gauge bound 0 (subscripted inner value) := by
  -- The bracket pays for the index.
  refine SpendsBy.eatMark_bind ?_ (SpendsBy.pure rfl)
  refine (SpendsBy.closedBy (lasting.expression.weaken (by omega) (Nat.le_refl _))).bind fun _ => ?_
  exact (SpendsBy.skipSpace _).bind fun _ => SpendsBy.pure (by omega)

/-- A conversion takes nothing if it is absent. -/
theorem converted_spends (lasting : inner.Last gauge bound) (value : Node) :
    SpendsBy gauge bound 0 (converted inner value) := by
  -- The conversion sign pays for the type.
  refine SpendsBy.eatMark_bind ?_ (SpendsBy.pure rfl)
  refine (SpendsBy.skipSpace _).bind fun _ => ?_
  refine ((atom_spends lasting).weaken (by omega) (Nat.le_refl _)).bind fun _ => ?_
  exact (SpendsBy.skipSpace _).bind fun _ => SpendsBy.pure (by omega)

/-- White space and the end of input are no symbol. -/
theorem terminal?_of_not_isSolid {token : Token} (thin : token.isSolid = false) :
    token.terminal? = none := by
  -- Only keywords and marks are symbols.
  rcases token.kind_of_not_isSolid thin with kind | kind <;> simp [Token.terminal?, kind]

/-- An operand takes a token. -/
theorem operand_spends (lasting : inner.Last gauge bound) :
    SpendsBy gauge (bound + 1) 1 (operand inner) := by
  -- A prefix operator or an atom is taken before any nested operand.
  refine (SpendsBy.skipSpace _).bind fun _ => ?_
  refine SpendsBy.accept_bind (fun token thin => ?_) (fun op => ?_) ?_
  · simp [Token.unaryOp?, terminal?_of_not_isSolid thin]
  · exact (lasting.operand.weaken (by omega) (by omega)).reshape
  · -- The suffixes are optional, and so is the arithmetic after them.
    refine (atom_spends lasting).bind fun value => ?_
    refine (SpendsBy.skipSpace _).bind fun _ => ?_
    refine (subscripted_spends (lasting.weaken (by omega)) _).bind fun value => ?_
    refine (converted_spends (lasting.weaken (by omega)) _).bind fun value => ?_
    refine SpendsBy.accept_bind (fun token thin => ?_) (fun op => ?_) (SpendsBy.pure (by omega))
    · simp [Token.binaryOp?, terminal?_of_not_isSolid thin]
    · exact (lasting.operand.weaken (by omega) (by omega)).reshape

/-- A predicate after its operand takes nothing if it is absent. -/
theorem predicateOf_spends (lasting : inner.Last gauge bound) (left : Node)
    (negation : Option Token) : SpendsBy gauge bound 0 (predicateOf inner left negation) := by
  -- The word or sign of a predicate pays for the operands after it.
  refine (SpendsBy.skipSpace _).bind fun _ => ?_
  refine SpendsBy.eatKeyword_bind ?_ (SpendsBy.eatKeyword_bind ?_ ?_)
  · -- A range has two operands.
    refine (lasting.operand.weaken (by omega) (Nat.le_refl _)).bind fun _ => ?_
    refine (SpendsBy.requireKeyword _ _).bind fun _ => ?_
    exact (lasting.operand.weaken (by omega) (by omega)).reshape
  · -- A list is closed by its parenthesis.
    refine (SpendsBy.skipSpace _).bind fun _ => (SpendsBy.requireMark _ _).bind fun _ => ?_
    refine (SpendsBy.closedBy (SpendsBy.separated
      (lasting.expression.weaken (by omega) (Nat.le_refl _))
      (Nat.le_trans (by omega) lasting.room))).bind fun _ => ?_
    exact (SpendsBy.skipSpace _).bind fun _ => SpendsBy.pure (by omega)
  · -- A sign or a word of likeness has one operand; without either, only a `NOT` is at fault.
    refine SpendsBy.accept_bind (fun token thin => ?_) (fun op => ?_) ?_
    · simp [Token.binaryOp?, terminal?_of_not_isSolid thin]
    · exact (lasting.operand.weaken (by omega) (by omega)).reshape
    · cases negation with
      | some token => exact SpendsBy.unexpected
      | none => exact SpendsBy.pure rfl

/-- A predicate takes a token. -/
theorem predicate_spends (lasting : inner.Last gauge bound) :
    SpendsBy gauge (bound + 1) 1 (predicate inner) := by
  -- The operand has taken a token already, so the rest may take nothing.
  refine (operand_spends lasting).bind fun left => ?_
  refine SpendsBy.accept_bind (fun token thin => ?_) (fun token => ?_) ?_
  · simp [isKeyword_of_not_isSolid _ thin]
  · exact (predicateOf_spends lasting _ _).weaken (by omega) (by omega)
  · exact (predicateOf_spends lasting _ _).weaken (by omega) (by omega)

/-- The `NOT` of an `IS` may be absent. -/
theorem withNot_spends (op : BinaryOp) :
    SpendsBy gauge bound 0 (withNot op : Parsing σ BinaryOp) := by
  -- Neither the white space nor the word need be there.
  unfold withNot
  split
  · refine (SpendsBy.skipSpace _).bind fun _ => ?_
    exact SpendsBy.eatKeyword_bind (SpendsBy.pure (by omega)) (SpendsBy.pure (by omega))
  · exact SpendsBy.pure rfl

/-- An expression takes a token. -/
theorem expression_spends (lasting : inner.Last gauge bound) :
    SpendsBy gauge (bound + 1) 1 (expression inner) := by
  -- The predicate has taken a token already, and the link pays for the expression after it.
  refine (predicate_spends lasting).bind fun left => ?_
  refine SpendsBy.accept_bind (fun token thin => ?_) (fun op => ?_) (SpendsBy.pure (by omega))
  · simp [Token.binaryOp?, terminal?_of_not_isSolid thin]
  · refine (withNot_spends op).bind fun op => ?_
    exact (lasting.expression.weaken (by omega) (by omega)).reshape

/-- A projection takes a token. -/
theorem projection_spends (lasting : inner.Last gauge bound) :
    SpendsBy gauge bound 1 (projection inner) := by
  -- The expression takes a token, and its name is extra.
  refine lasting.expression.bind fun value => ?_
  refine SpendsBy.eatKeyword_bind ?_ (SpendsBy.pure (by omega))
  refine (SpendsBy.skipSpace _).bind fun _ => ?_
  exact (SpendsBy.requireIdentifier _).bind fun _ => SpendsBy.pure (by omega)

/-- Projections may be absent. -/
theorem projections?_spends (lasting : inner.Last gauge bound) :
    SpendsBy gauge bound 0 (projections? inner) := by
  -- Looking for the next clause is free.
  refine (SpendsBy.peek _).bind fun token => ?_
  split
  · exact SpendsBy.pure rfl
  · refine (SpendsBy.separated (projection_spends lasting) lasting.room).bind fun items => ?_
    exact (SpendsBy.skipSpace _).bind fun _ => SpendsBy.pure (by omega)

/-- White space and the end of input are no direction and no place of nulls. -/
theorem direction?_of_not_isSolid {token : Token} (thin : token.isSolid = false) :
    token.direction? = none ∧ token.nullsPlace? = none := by
  -- Both meanings are those of keywords.
  rcases token.kind_of_not_isSolid thin with kind | kind <;>
    simp [Token.direction?, Token.nullsPlace?, kind]

/-- A sort key takes a token. -/
theorem sortKey_spends (lasting : inner.Last gauge bound) :
    SpendsBy gauge bound 1 (sortKey inner) := by
  -- The expression takes a token, and all modifiers are extra.
  refine lasting.expression.bind fun key => ?_
  -- What follows the direction is the same whether or not one is written.
  have rest : ∀ direction : Option SortOption, SpendsBy gauge (bound - 1) 0 (do
      skipSpace
      let nulls ← after? .nulls do
        skipSpace
        require .nullsPlace Token.nullsPlace?
      skipSpace
      return ⟨key, direction.toList ++ nulls.toList⟩ : Parsing σ SortKey) := by
    intro direction
    refine (SpendsBy.skipSpace _).bind fun _ => ?_
    refine (SpendsBy.after? ?_).bind fun nulls => ?_
    · refine (SpendsBy.skipSpace _).bind fun _ => ?_
      exact (SpendsBy.require fun token thin => (direction?_of_not_isSolid thin).2).weaken
        (Nat.le_refl _) (by omega)
    · exact (SpendsBy.skipSpace _).bind fun _ => SpendsBy.pure rfl
  refine SpendsBy.accept_bind (fun token thin => (direction?_of_not_isSolid thin).1)
    (fun option => ?_) ?_
  · exact (rest (some option)).weaken (by omega) (by omega)
  · exact rest none

/-- A list after `BY` takes that keyword at least. -/
theorem byList_spends {item : Parsing σ α} (lasting : inner.Last gauge bound)
    (spends : SpendsBy gauge bound 1 item) : SpendsBy gauge bound 0 (byList inner item) := by
  -- The `BY` is more than the list is asked to take.
  refine (SpendsBy.skipSpace _).bind fun _ => (SpendsBy.requireKeyword _ _).bind fun _ => ?_
  exact (SpendsBy.separated (spends.weaken (by omega) (Nat.le_refl _))
    (Nat.le_trans (by omega) lasting.room)).weaken (Nat.le_refl _) (by omega)

/-- The value of a `LIMIT` or `OFFSET` takes a token. -/
theorem rowCount_spends (lasting : inner.Last gauge bound) :
    SpendsBy gauge bound 0 (rowCount inner) := by
  -- The atom takes a token, which is more than is asked for.
  refine (SpendsBy.skipSpace _).bind fun _ => ?_
  refine ((atom_spends lasting).weaken (by omega) (Nat.le_refl _)).bind fun _ => ?_
  exact (SpendsBy.skipSpace _).bind fun _ => SpendsBy.pure (by omega)

/-- A statement takes its `SELECT`. -/
theorem select_spends (lasting : inner.Last gauge bound) :
    SpendsBy gauge (bound + 1) 1 (select inner) := by
  -- The `SELECT` is the token by which the nested bound is smaller.
  refine (SpendsBy.requireKeyword _ _).bind fun _ => (SpendsBy.skipSpace _).bind fun _ => ?_
  -- Every clause is optional and begins with a keyword of its own.
  have clauses : ∀ distinct : Bool, SpendsBy gauge bound 0 (do
      skipSpace
      let projections ← projections? inner
      let sources ← after? .from_ (separated inner.source inner.bound)
      let filter ← after? .where_ inner.expression
      let groupBy ← after? .group (byList inner inner.expression)
      let orderBy ← after? .order (byList inner (sortKey inner))
      let limit ← after? .limit (rowCount inner)
      let offset ← after? .offset (rowCount inner)
      return { distinct, projections, sources, filter, groupBy, orderBy, limit, offset }
      : Parsing σ Select) := by
    intro distinct
    refine (SpendsBy.skipSpace _).bind fun _ => ?_
    refine (projections?_spends lasting).bind fun projections => ?_
    refine (SpendsBy.after? ((SpendsBy.separated lasting.source lasting.room).weaken
      (by omega) (by omega))).bind fun sources => ?_
    refine (SpendsBy.after? (lasting.expression.weaken (by omega) (by omega))).bind fun filter => ?_
    refine (SpendsBy.after? ((byList_spends lasting lasting.expression).weaken
      (by omega) (by omega))).bind fun groupBy => ?_
    refine (SpendsBy.after? ((byList_spends lasting (sortKey_spends lasting)).weaken
      (by omega) (by omega))).bind fun orderBy => ?_
    refine (SpendsBy.after? ((rowCount_spends lasting).weaken
      (by omega) (by omega))).bind fun limit => ?_
    refine (SpendsBy.after? ((rowCount_spends lasting).weaken
      (by omega) (by omega))).bind fun offset => ?_
    exact SpendsBy.pure rfl
  exact SpendsBy.eatKeyword_bind ((clauses true).weaken (by omega) (by omega)) (clauses false)

/-- The words of a join after the first may be none. -/
theorem joinWords_spends (first : JoinKind) :
    SpendsBy gauge bound 0 (joinWords first : Parsing σ JoinKind) := by
  -- Each kind takes what further words it needs, and none takes fewer than none.
  -- Only a full join takes its `OUTER` for certain.
  have outer_spends : SpendsBy gauge bound 0 (outer first : Parsing σ JoinKind) := by
    unfold outer
    split
    · exact SpendsBy.eatKeyword_bind (SpendsBy.pure (by omega)) (SpendsBy.pure (by omega))
    · exact SpendsBy.eatKeyword_bind (SpendsBy.pure (by omega)) (SpendsBy.pure (by omega))
    · exact (SpendsBy.requireKeyword _ _).bind fun _ => SpendsBy.pure (by omega)
    · exact SpendsBy.pure rfl
  unfold joinWords
  split
  · exact SpendsBy.pure rfl
  · refine (SpendsBy.skipSpace _).bind fun _ => ?_
    refine (outer_spends.weaken (by omega) (Nat.le_refl _)).bind fun kind => ?_
    refine (SpendsBy.skipSpace _).bind fun _ => ?_
    exact (SpendsBy.requireKeyword _ _).bind fun _ => SpendsBy.pure (by omega)

/-- A table takes its name. -/
theorem tableName_spends : SpendsBy gauge bound 1 (tableName : Parsing σ Node) := by
  -- The first name is required; what follows the dot is extra.
  refine (SpendsBy.requireIdentifier _).bind fun first => ?_
  refine SpendsBy.eatMark_bind ?_ (SpendsBy.pure (by omega))
  exact (SpendsBy.requireIdentifier _).bind fun _ => SpendsBy.pure (by omega)

/-- A source without its name takes a token. -/
theorem unnamedSource_spends (lasting : inner.Last gauge bound) :
    SpendsBy gauge (bound + 1) 1 (unnamedSource inner) := by
  -- Parenthesis, `SELECT` or name is taken before anything nested.
  refine SpendsBy.eatMark_bind ?_ ?_
  · exact (SpendsBy.closedBy (lasting.source.weaken (by omega) (Nat.le_refl _))).bind fun _ =>
      SpendsBy.pure (by omega)
  · refine (SpendsBy.peek _).bind fun token => ?_
    split
    · exact (select_spends lasting).reshape
    · exact tableName_spends

/-- A member of a join takes a token. -/
theorem joined_spends (lasting : inner.Last gauge bound) :
    SpendsBy gauge (bound + 1) 1 (joined inner) := by
  -- The source takes a token, and its name is extra.
  refine (SpendsBy.skipSpace _).bind fun _ => ?_
  refine (unnamedSource_spends lasting).bind fun source => ?_
  refine (SpendsBy.skipSpace _).bind fun _ => ?_
  refine SpendsBy.eatKeyword_bind ?_ ?_
  · refine (SpendsBy.skipSpace _).bind fun _ => ?_
    exact (SpendsBy.requireIdentifier _).bind fun _ => SpendsBy.pure (by omega)
  · refine SpendsBy.accept_bind (fun token => ident?_of_not_isSolid) (fun name => ?_) ?_
    · exact SpendsBy.pure (by omega)
    · exact SpendsBy.pure (by omega)

/-- A join after the first of its words: the other words, the right side and the condition. -/
def joinRest (inner : Rules σ) (left : Node) (first : JoinKind) : Parsing σ Node := do
  -- All that was read before is the left side.
  let kind ← joinWords first
  let right ← joined inner
  skipSpace
  let condition ← after? .on inner.expression
  return .join kind left right condition

/-- One more join, if there is one. -/
def joinLap (inner : Rules σ) (left : Node) : Parsing σ (Option Node) := do
  -- This is what one round of reading joins takes.
  skipSpace
  match ← accept? Token.joinKind? with
  | none => return none
  | some first => return some (← joinRest inner left first)

/-- Reading joins goes round once for each of them, and once more to find that there is none. -/
theorem joins_succ (most : Nat) (left : Node) :
    joins inner (most + 1) left = joinLap inner left >>= fun further? =>
      match further? with
      | none => pure left
      | some further => joins inner most further := by
  -- Without a first word the round ends in what was read before.
  simp only [joins, joinLap, bind_assoc]
  refine bind_congr fun _ => bind_congr fun first? => ?_
  cases first? with
  | none => simp only [pure_bind]
  | some first => simp only [joinRest, bind_assoc, pure_bind]

/-- White space and the end of input begin no join. -/
theorem joinKind?_of_not_isSolid {token : Token} (thin : token.isSolid = false) :
    token.joinKind? = none := by
  -- A join begins with a keyword.
  rcases token.kind_of_not_isSolid thin with kind | kind <;> simp [Token.joinKind?, kind]

/-- A join takes its right side at least. -/
theorem joinRest_spends (lasting : inner.Last gauge bound) (left : Node) (first : JoinKind) :
    SpendsBy gauge bound 1 (joinRest inner left first) := by
  -- Neither further words nor a condition need be there.
  refine (joinWords_spends first).bind fun kind => ?_
  refine ((joined_spends lasting).weaken (by omega) (Nat.le_refl _)).bind fun right => ?_
  refine (SpendsBy.skipSpace _).bind fun _ => ?_
  refine (SpendsBy.after?
    (lasting.expression.weaken (by omega) (by omega))).bind fun condition => ?_
  exact SpendsBy.pure (by omega)

/-- Each further join takes the first of its words, so the bound on joins lasts. -/
theorem joins_spends {most : Nat} (lasting : inner.Last gauge bound) (room : bound ≤ most)
    (left : Node) : SpendsBy gauge bound 0 (joins inner most left) := by
  -- With no bound left there are no unread tokens to give up on.
  induction most generalizing bound left with
  | zero =>
    obtain rfl : bound = 0 := by omega
    exact SpendsBy.zero _ _
  | succ most ih =>
    rw [joins_succ, joinLap]
    simp only [bind_assoc]
    refine (SpendsBy.skipSpace _).bind fun _ => ?_
    refine SpendsBy.accept_bind (fun token => joinKind?_of_not_isSolid) (fun first => ?_) ?_
    · -- The first word of the join has been taken, which pays for the next round.
      simp only [bind_assoc, pure_bind]
      refine (joinRest_spends (lasting.weaken (Nat.sub_le bound 1)) left first).bind
        fun further => ?_
      have lasting : inner.Last gauge (bound - 1 - 1) := lasting.weaken (by omega)
      exact (ih lasting (by omega) _).weaken (Nat.le_refl _) (by omega)
    · simp only [pure_bind]
      exact SpendsBy.pure rfl

/-- A source takes a token. -/
theorem source_spends (lasting : inner.Last gauge bound) :
    SpendsBy gauge (bound + 1) 1 (source inner) := by
  -- The first member takes a token, and further joins are extra.
  refine (joined_spends lasting).bind fun first => ?_
  exact (joins_spends lasting lasting.room first).weaken (by omega) (by omega)

/-- Rules tied up to a bound last while fewer tokens than that are left. -/
theorem rules_last (bound : Nat) : (rules bound : Rules σ).Last gauge bound := by
  -- Each level hands nested text to the level below after taking a token.
  induction bound with
  | zero =>
    exact ⟨Nat.le_refl _, SpendsBy.zero _ _, SpendsBy.zero _ _, SpendsBy.zero _ _⟩
  | succ bound ih =>
    exact ⟨Nat.le_refl _, expression_spends ih, operand_spends ih, source_spends ih⟩

/-- The end of input takes nothing. -/
theorem endOfInput_spends (admitted : ∀ found, gauge.admits (.trailing found)) :
    SpendsBy gauge bound 0 (endOfInput : Parsing σ Unit) := by
  -- Whatever else is found is refused.
  have either : ∀ token : Token, SpendsBy gauge bound 0
      (if token.isEof then pure () else throw (.refused (.trailing token)) : Parsing σ Unit) := by
    intro token
    split
    · exact SpendsBy.pure rfl
    · exact SpendsBy.refused (admitted token)
  refine (SpendsBy.skipSpace _).bind fun _ => ?_
  exact SpendsBy.next_bind (fun token _ => (either token).weaken (by omega) (by omega))
    fun token _ => either token

/-- A whole text takes what its content takes. -/
theorem whole_spendsBy {item : Parsing σ α} (admitted : ∀ found, gauge.admits (.trailing found))
    (spends : SpendsBy gauge bound 1 item) : SpendsBy gauge bound 1 (whole item) := by
  -- The check for the end of input asks for nothing more.
  refine spends.bind fun value => ?_
  exact (endOfInput_spends admitted).bind fun _ => SpendsBy.pure (by omega)

/-- A whole text takes as many tokens as its content. -/
theorem whole_spends {item : Parsing σ α} (spends : SpendsBy (.tokens σ) bound 1 item) :
    Spends bound 1 (whole item) :=
  -- Every refusal will do where only tokens are counted.
  (whole_spendsBy (fun _ => trivial) spends).spends

/-- A statement after white space takes its `SELECT`. -/
theorem spacedSelect_spends (lasting : inner.Last gauge bound) :
    SpendsBy gauge (bound + 1) 1 (spacedSelect inner) :=
  -- White space before the statement is extra.
  (SpendsBy.skipSpace _).bind fun _ => select_spends lasting

/-- A statement takes its `SELECT`. -/
theorem statement_spends (lasting : inner.Last gauge bound) :
    SpendsBy gauge (bound + 1) 1 (statement inner) := by
  -- Looking for the `SELECT` is free, and taking it counts.
  refine (SpendsBy.skipSpace _).bind fun _ => (SpendsBy.peek _).bind fun token => ?_
  split
  · exact select_spends lasting
  · exact SpendsBy.unexpected

end SelectSql.Grammar
