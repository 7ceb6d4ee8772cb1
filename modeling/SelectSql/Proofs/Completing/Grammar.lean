import SelectSql.Grammar.Nesting
import SelectSql.Proofs.Completing.Steady

/-!
Every rule of the grammar is begun on a few fillers and completed wherever it starves, however it is
nested. The fillers are the least that the rule can do with, and what may follow them is a mark or a
word that closes an outer rule, or nothing.
-/

namespace SelectSql

open Grammar
open Filler (keyword mark)

/-- What may come after an operand among fillers. -/
def stops : List (Option Filler) :=
  -- The bounds of a range have a word in between, which is a connective elsewhere.
  [none, some (mark .closeParen), some (mark .closeBracket), some (keyword .then_),
    some (keyword .when), some (keyword .end_), some (keyword .and)]

/-- What may come after an expression among fillers. -/
def halts : List (Option Filler) :=
  -- A connective would join the expression to another, so none is among these.
  [none, some (mark .closeParen), some (mark .closeBracket), some (keyword .then_),
    some (keyword .when), some (keyword .end_)]

/-- What may come after a source or a statement among fillers. -/
def closes : List (Option Filler) :=
  -- Both stand between parentheses or make up the whole text.
  [none, some (mark .closeParen)]

/-- Rules for nested text that are begun on fillers and completed wherever they starve. -/
structure Completing (starving : Rules Tape) (inner : Nat → Rules Tape) : Prop where
  /-- An expression is begun as a string. -/
  expression : Steady [.string] either starving.expression (fun bound => (inner bound).expression)
    halts [false]
  /-- An operand is begun as a string. -/
  operand : Steady [.string] either starving.operand (fun bound => (inner bound).operand)
    stops [false]
  /-- A source is begun as a name. -/
  source : Steady [.name] either starving.source (fun bound => (inner bound).source)
    closes [false]

namespace Steady

variable {starving : Rules Tape} {inner : Nat → Rules Tape} {leads : List Bool}

section Expressions

/-- Arguments are left out. -/
theorem arguments (nested : Completing starving inner) :
    Steady [] leads (Grammar.arguments starving) (fun bound => Grammar.arguments (inner bound))
      [some (mark .closeParen)] [false] := by
  refine skipSpace_bind (peek_bind ?_ fun token => ?_)
  · -- Among fillers the parenthesis closes at once, and in a text it depends on the token.
    intro token front bound
    obtain rfl := List.mem_singleton.1 front
    exact .pure (.refl _)
  · split
    · exact .pure
    · exact (separated nested.expression (by decide) (by decide) _ _).completes

/-- A name stands alone. -/
theorem named (nested : Completing starving inner) (name : String) :
    Steady [] either (Grammar.named starving name) (fun bound => Grammar.named (inner bound) name)
      stops either := by
  refine eat_bind (by decide) (fun _ _ => ⟨[mark .closeParen], ?_⟩) ?_
  · exact ((arguments nested).closedBy (by decide) (.refl _)).reshape
  · refine eat_bind (by decide) (fun token dot => ⟨[.name], ?_⟩) (.pure (.refl _))
    -- Only here no white space may come between the text and what it is completed with.
    rw [Token.apart_of_isMark_dot dot]
    exact require_bind (by decide) fun _ => .pure (.refl _)

/-- The subject of a choice is left out. -/
theorem subject? (nested : Completing starving inner) :
    Steady [] [false] (Grammar.subject? starving) (fun bound => Grammar.subject? (inner bound))
      [some (keyword .when)] [false] := by
  refine peek_bind ?_ fun token => ?_
  · -- Among fillers the `WHEN` comes first, so there is no subject.
    intro token front bound
    obtain rfl := List.mem_singleton.1 front
    exact .pure (.refl _)
  · split
    · exact .pure
    · exact (nested.expression.mono (.refl _) (by decide) (.refl _)).reshape.completes

/-- Branches are one, unless the text has more. -/
theorem branches (nested : Completing starving inner) (most : Nat) (limit : Nat → Nat) :
    Steady [.string, keyword .then_, .string] either (Grammar.branches starving most)
      (fun bound => Grammar.branches (inner bound) (limit bound)) [some (keyword .end_)]
      [false] := by
  -- The induction is on the bound of the starving branches, with the other bound left arbitrary.
  induction most generalizing limit with
  | zero =>
    -- Giving up does not starve, and where the bound allows a branch there is one.
    refine ⟨fun bound => ?_, .exhausted⟩
    cases limit bound with
    | zero => exact .exhausted
    | succ most =>
      have expression := nested.expression.finishes bound
      refine expression.bind (by decide) fun condition => .require_bind (by decide) fun _ => ?_
      exact expression.bind (by decide) fun result => .eat_bind (by decide) (.pure (.refl _))
  | succ most ih =>
    have longer : Steady [.string, keyword .then_, .string] either
        (Grammar.branches starving (most + 1))
        (fun bound => Grammar.branches (inner bound) (limit bound - 1 + 1))
        [some (keyword .end_)] [false] := by
      refine nested.expression.bind (by decide) fun condition => ?_
      refine require_bind (by decide) fun _ => ?_
      refine nested.expression.bind (by decide) fun result => ?_
      refine eat_bind (by decide) (fun _ _ => ⟨[.string, keyword .then_, .string], ?_⟩)
        (.pure (.refl _))
      exact (ih fun bound => limit bound - 1).reshape.wide
    refine longer.bounded fun bound => ?_
    cases limit bound with
    | zero => exact .inl rfl
    | succ most => exact .inr rfl

/-- A choice has one branch and nothing else, after the white space that must come. -/
theorem choice (nested : Completing starving inner) :
    Steady [keyword .when, .string, keyword .then_, .string, keyword .end_] [true]
      (Grammar.choice starving) (fun bound => Grammar.choice (inner bound)) stops either := by
  -- The rule is followed part by part, and each part names the fillers it needs.
  refine space_bind ((subject? nested).bind (by decide) fun subject => ?_)
  refine require_bind (by decide) fun _ => (branches nested _ _).bind (by decide) fun branches => ?_
  refine nested.expression.after?_bind (by decide) (by decide) fun otherwise => ?_
  exact require_bind (by decide) fun _ => .pure (.refl _)

/-- An atom is a string. -/
theorem atom (nested : Completing starving inner) :
    Steady [.string] [false] (Grammar.atom starving) (fun bound => Grammar.atom (inner bound))
      stops either := by
  refine next_bind (fun bound => .pure (.refl _)) fun token => ?_
  have either_of : [token.apart] ⊆ either := List.cons_subset.2 ⟨mem_either _, List.nil_subset _⟩
  -- The category decides, as it does for the rule itself.
  cases kind : token.kind with
  | literal => exact .inr ⟨[], .pure either_of⟩
  | identifier => exact .inr ⟨[], (named nested token.text).wide⟩
  | keyword word =>
    cases word with
    | null => exact .inr ⟨[], .pure either_of⟩
    | case =>
      have apart : token.apart = true := by
        simp [Token.apart, Token.isSpace, Token.isMark, Token.isPunctuation, kind]
      rw [apart]
      exact .inr ⟨_, choice nested⟩
    | _ => exact .inl ⟨_, rfl⟩
  | mark =>
    dsimp only
    split
    · exact .inr ⟨[], .pure either_of⟩
    split
    · exact .inr ⟨[.string, mark .closeParen],
        (nested.expression.closedBy (by decide) (.refl _)).reshape.wide⟩
    · exact .inl ⟨_, rfl⟩
  | space => exact .inl ⟨_, rfl⟩
  | eof => exact .inl ⟨_, rfl⟩

/-- A value stands without an index. -/
theorem subscripted (nested : Completing starving inner) (value : Node) :
    Steady [] [false] (Grammar.subscripted starving value)
      (fun bound => Grammar.subscripted (inner bound) value) stops [false] := by
  refine eat_bind (by decide) (fun _ _ => ⟨[.string, mark .closeBracket], ?_⟩) (.pure (.refl _))
  exact (nested.expression.closedBy (by decide) (.refl _)).wide.bind (List.Subset.refl _)
    fun index => skipSpace.reshape

/-- A value stands without a conversion. -/
theorem converted (nested : Completing starving inner) (value : Node) :
    Steady [] [false] (Grammar.converted starving value)
      (fun bound => Grammar.converted (inner bound) value) stops [false] := by
  refine eat_bind (by decide) (fun _ _ => ⟨[.string], ?_⟩) (.pure (.refl _))
  -- After a double colon the target is a string.
  exact skipSpace_bind ((atom nested).bind (.refl _) fun target => skipSpace.reshape)

/-- An operand is a string. -/
theorem operand (nested : Completing starving inner) :
    Steady [.string] either (Grammar.operand starving)
      (fun bound => Grammar.operand (inner bound)) stops [false] := by
  refine skipSpace_bind (accept_bind (by decide) (fun _ _ _ => ⟨[.string], ?_⟩) ?_)
  · -- After a prefix, and after a sign of arithmetic, the operand that must come is a string.
    exact nested.operand.reshape.wide
  refine (atom nested).bind (.refl _) fun value => skipSpace.bind (.refl _) fun _ => ?_
  refine (subscripted nested value).bind (.refl _) fun value => ?_
  refine (converted nested value).bind (.refl _) fun value => ?_
  refine accept_bind (by decide) (fun _ _ _ => ⟨[.string], ?_⟩) (.pure (.refl _))
  exact nested.operand.reshape.wide

/-- What follows an operand is nothing, or the shortest predicate if a `NOT` has announced one. -/
theorem predicateOf (nested : Completing starving inner) (left : Node) (negation : Option Token) :
    Steady (if negation.isSome then [keyword .like, .string] else []) leads
      (Grammar.predicateOf starving left negation)
      (fun bound => Grammar.predicateOf (inner bound) left negation) halts [false] := by
  have operand : Steady [.string] either starving.operand (fun bound => (inner bound).operand)
      halts [false] := nested.operand.mono (.refl _) (by decide) (.refl _)
  -- A range needs both of its ends, a list one item, and anything else its right side.
  refine skipSpace_bind (eat_bind ?_ (fun _ _ => ⟨[.string, keyword .and, .string], ?_⟩)
    (eat_bind ?_ (fun _ _ => ⟨[mark .openParen, .string, mark .closeParen], ?_⟩) ?_))
  · cases negation.isSome <;> decide
  · refine (nested.operand.bind (by decide) fun low => ?_).wide
    exact require_bind (by decide) fun _ => operand.reshape
  · cases negation.isSome <;> decide
  · refine skipSpace_bind (require_bind (by decide) fun _ => ?_)
    have items : Steady [.string] either (Parsing.separated starving.expression starving.bound)
        (fun bound => Parsing.separated (inner bound).expression (inner bound).bound)
        [some (mark .closeParen)] [false] :=
      nested.expression.separated (by decide) (by decide) _ _
    exact (items.closedBy (by decide) (.refl _)).bind (.refl _) fun items => skipSpace.reshape
  · cases negation with
    | none =>
      exact accept_bind (by decide) (fun _ _ _ => ⟨[.string], operand.reshape.wide⟩)
        (.pure (.refl _))
    | some token =>
      -- The `NOT` would be refused if nothing came that it announces.
      exact accept_filler_bind (by decide) (fun _ => operand.reshape) .unexpected

/-- An operator of its own stands without the `NOT` that it may take. -/
theorem withNot (op : BinaryOp) :
    Steady [] either (Grammar.withNot op) (fun _ => Grammar.withNot op) [some .string] either := by
  unfold Grammar.withNot
  split
  · exact skipSpace_bind (eat_optional_bind (by decide) fun _ => .pure (.refl _))
  · exact .pure (.refl _)

/-- An expression is a string. -/
theorem expression (nested : Completing starving inner) :
    Steady [.string] either (Grammar.expression starving)
      (fun bound => Grammar.expression (inner bound)) halts [false] := by
  have predicate : Steady [.string] either (Grammar.predicate starving)
      (fun bound => Grammar.predicate (inner bound)) halts [false] := by
    refine (operand nested).bind (by decide) fun left => ?_
    refine accept_bind (by decide) (fun _ token _ => ⟨[keyword .like, .string], ?_⟩) ?_
    · exact predicateOf nested left (some token)
    · exact predicateOf nested left none
  -- After a link another expression must come, of which a string is the least.
  refine predicate.bind (.refl _) fun left => ?_
  refine accept_bind (by decide) (fun _ op _ => ⟨[.string], ?_⟩) (.pure (.refl _))
  exact ((withNot op).bind (.refl _) fun op => nested.expression.reshape).wide

end Expressions

section Statements

/-- A projection has no name. -/
theorem projection (nested : Completing starving inner) :
    Steady [.string] either (Grammar.projection starving)
      (fun bound => Grammar.projection (inner bound)) closes either := by
  refine nested.expression.bind (by decide) fun value => ?_
  refine eat_bind (by decide) (fun _ _ => ⟨[.name], ?_⟩) (.pure (by decide))
  exact skipSpace_bind (require_bind (by decide) fun _ => .pure (.refl _))

/-- Projections are one string. -/
theorem projections? (nested : Completing starving inner) :
    Steady [.string] [false] (Grammar.projections? starving)
      (fun bound => Grammar.projections? (inner bound)) closes [false] := by
  have items : Steady [.string] [false]
      (Parsing.separated (Grammar.projection starving) starving.bound >>= fun items =>
        Parsing.skipSpace >>= fun _ => Pure.pure (some items))
      (fun bound => Parsing.separated (Grammar.projection (inner bound)) (inner bound).bound >>=
        fun items => Parsing.skipSpace >>= fun _ => Pure.pure (some items)) closes [false] :=
    ((projection nested).separated (.refl _) (by decide) _ _).wide.bind (.refl _)
      fun items => skipSpace.reshape
  refine peek_bind ?_ fun token => ?_
  · -- Among fillers a string comes first, so there are projections.
    intro token front bound
    obtain rfl := List.mem_singleton.1 front
    exact items.finishes bound
  · split
    · exact .pure
    · exact items.completes

/-- A sort key is an expression alone. -/
theorem sortKey (nested : Completing starving inner) :
    Steady [.string] either (Grammar.sortKey starving)
      (fun bound => Grammar.sortKey (inner bound)) closes [false] := by
  have nulls : Steady [keyword .first] either
      (Parsing.skipSpace >>= fun _ => Parsing.require .nullsPlace Token.nullsPlace?)
      (fun _ => Parsing.skipSpace >>= fun _ => Parsing.require .nullsPlace Token.nullsPlace?)
      closes either := by
    suffices found : Steady [keyword .first] either
        (Parsing.skipSpace >>= fun _ => Parsing.require .nullsPlace Token.nullsPlace? >>= Pure.pure)
        (fun _ => Parsing.skipSpace >>= fun _ =>
          Parsing.require .nullsPlace Token.nullsPlace? >>= Pure.pure) closes either by
      simpa only [bind_pure] using found
    exact skipSpace_bind (require_bind (by decide) fun _ => .pure (.refl _))
  -- Neither a direction nor a place of nulls has to be there.
  refine nested.expression.bind (by decide) fun key => ?_
  refine accept_optional_bind (by decide) fun direction => skipSpace_bind ?_
  exact (nulls.after?_bind (.refl _) (by decide) fun nulls => skipSpace.reshape).wide

/-- The list after `GROUP` or `ORDER` has one item. -/
theorem byList {α : Type} {filler : Filler} {item : Parsing Tape α} {family : Family α}
    (steady : Steady [filler] either item family closes [false]) :
    Steady [keyword .by_, filler] leads (Grammar.byList starving item)
      (fun bound => Grammar.byList (inner bound) (family bound)) closes [false] := by
  refine skipSpace_bind (require_bind (by decide) fun _ => ?_)
  exact steady.separated (.refl _) (by decide) _ _

/-- The value of a `LIMIT` or `OFFSET` is a string. -/
theorem rowCount (nested : Completing starving inner) :
    Steady [.string] leads (Grammar.rowCount starving)
      (fun bound => Grammar.rowCount (inner bound)) closes [false] := by
  refine skipSpace_bind ((atom nested).bind (by decide) fun value => ?_)
  exact skipSpace.reshape

/-- A statement has one projection and no clauses. -/
theorem select (nested : Completing starving inner) :
    Steady [keyword .select, .string] [false] (Grammar.select starving)
      (fun bound => Grammar.select (inner bound)) closes [false] := by
  have expression : Steady [.string] either starving.expression
      (fun bound => (inner bound).expression) closes [false] :=
    nested.expression.mono (.refl _) (by decide) (.refl _)
  have sources : Steady [.name] either (Parsing.separated starving.source starving.bound)
      (fun bound => Parsing.separated (inner bound).source (inner bound).bound) closes [false] :=
    nested.source.separated (.refl _) (by decide) _ _
  -- Every clause may be left out, and where the text has begun one it is completed by its least
  -- form.
  refine require_bind (by decide) fun _ => skipSpace_bind ?_
  refine eat_optional_bind (by decide) fun distinct => skipSpace_bind ?_
  refine (projections? nested).bind (.refl _) fun projections => ?_
  refine sources.after?_bind (.refl _) (by decide) fun sources => ?_
  refine expression.after?_bind (.refl _) (by decide) fun filter => ?_
  refine (byList expression).after?_bind (.refl _) (by decide) fun groupBy => ?_
  refine (byList (sortKey nested)).after?_bind (.refl _) (by decide) fun orderBy => ?_
  refine (rowCount nested).after?_bind (.refl _) (by decide) fun limit => ?_
  exact (rowCount nested).after?_bind (.refl _) (by decide) fun offset => .pure (.refl _)

/-- A statement begins with its keyword, and has white space in front if there is any. -/
theorem statement (nested : Completing starving inner) :
    Steady [keyword .select, .string] either (Grammar.statement starving)
      (fun bound => Grammar.statement (inner bound)) closes [false] := by
  refine skipSpace_bind (peek_bind ?_ fun token => ?_)
  · intro token front bound
    obtain rfl := List.mem_singleton.1 front
    exact (select nested).finishes bound
  · split
    · exact (select nested).completes
    · exact .unexpected

/-- A statement that must begin with its keyword may have white space in front. -/
theorem spacedSelect (nested : Completing starving inner) :
    Steady [keyword .select, .string] either (Grammar.spacedSelect starving)
      (fun bound => Grammar.spacedSelect (inner bound)) closes [false] :=
  skipSpace_bind (select nested)

end Statements

section Sources

/-- The word that a join cannot do without before its `JOIN`. -/
def outerFillers (kind : JoinKind) : List Filler :=
  -- Only a full join requires its `OUTER`.
  if kind = .fullOuter then [keyword .outer] else []

/-- The words that complete a join after its first one. -/
def joinFillers (first : JoinKind) : List Filler :=
  -- A plain join has no other word.
  if first == .plain then [] else outerFillers first ++ [keyword .join]

/-- The `OUTER` of a join is left out where it may be. -/
theorem outer (kind : JoinKind) :
    Steady (outerFillers kind) [false] (Grammar.outer kind) (fun _ => Grammar.outer kind)
      [some (keyword .join)] either := by
  cases kind with
  | left => exact eat_optional_bind (by decide) fun _ => .pure (.refl _)
  | right => exact eat_optional_bind (by decide) fun _ => .pure (.refl _)
  | fullOuter => exact require_bind (by decide) fun _ => .pure (.refl _)
  | _ => exact .pure (by decide)

/-- The words of a join are those that it cannot do without. -/
theorem joinWords (first : JoinKind) :
    Steady (joinFillers first) either (Grammar.joinWords first) (fun _ => Grammar.joinWords first)
      [some .name] either := by
  unfold Grammar.joinWords joinFillers
  cases first == .plain with
  | true => exact .pure (.refl _)
  | false =>
    refine skipSpace_bind ((outer first).bind (.refl _) fun kind => skipSpace_bind ?_)
    exact require_bind (by decide) fun _ => .pure (.refl _)

/-- A table has a name of its own alone. -/
theorem tableName : Steady [.name] [false] (Grammar.tableName : Parsing Tape Node)
    (fun _ => Grammar.tableName) closes either := by
  refine require_bind (by decide) fun first => ?_
  refine eat_bind (by decide) (fun token dot => ⟨[.name], ?_⟩) (.pure (.refl _))
  rw [Token.apart_of_isMark_dot dot]
  exact require_bind (by decide) fun _ => .pure (.refl _)

/-- A source without its own name is a table. -/
theorem unnamedSource (nested : Completing starving inner) :
    Steady [.name] [false] (Grammar.unnamedSource starving)
      (fun bound => Grammar.unnamedSource (inner bound)) closes either := by
  refine eat_bind (by decide) (fun _ _ => ⟨[.name, mark .closeParen], ?_⟩) ?_
  · exact (nested.source.closedBy (by decide) (.refl _)).reshape.wide
  -- Among fillers a name comes first, which is no `SELECT`.
  refine peek_bind ?_ fun token => ?_
  · intro token front bound
    obtain rfl := List.mem_singleton.1 front
    exact tableName.finishes bound
  · split
    · exact ((select nested).mono (.refl _) (.refl _) (by decide)).reshape.completes
    · exact tableName.completes

/-- A member of a join is a table. -/
theorem joined (nested : Completing starving inner) :
    Steady [.name] either (Grammar.joined starving) (fun bound => Grammar.joined (inner bound))
      closes either := by
  refine skipSpace_bind ((unnamedSource nested).bind (.refl _) fun source => skipSpace_bind ?_)
  refine eat_bind (by decide) (fun _ _ => ⟨[.name], ?_⟩) ?_
  · exact skipSpace_bind (require_bind (by decide) fun _ => .pure (.refl _))
  · exact accept_bind (by decide) (fun _ _ _ => ⟨[], (pure (.refl _)).wide⟩) (.pure (by decide))

/-- No join follows, unless the text has one. -/
theorem joins (nested : Completing starving inner) (most : Nat) (limit : Nat → Nat) (left : Node) :
    Steady [] leads (Grammar.joins starving most left)
      (fun bound => Grammar.joins (inner bound) (limit bound) left) closes [false] := by
  -- The induction is on the bound of the starving loop, as for lists.
  induction most generalizing limit left leads with
  | zero =>
    refine ⟨fun bound => ?_, .exhausted⟩
    cases limit bound with
    | zero => exact .exhausted
    | succ most => exact .skipSpace_bind (.accept_bind (by decide) (.pure (.refl _)))
  | succ most ih =>
    have longer : Steady [] leads (Grammar.joins starving (most + 1) left)
        (fun bound => Grammar.joins (inner bound) (limit bound - 1 + 1) left) closes [false] := by
      refine skipSpace_bind (accept_bind (by decide) (fun _ first _ => ?_) (.pure (.refl _)))
      refine ⟨joinFillers first ++ [.name], ?_⟩
      refine ((joinWords first).bind (.refl _) fun kind => ?_).wide
      refine (joined nested).bind (.refl _) fun right => skipSpace.bind (.refl _) fun _ => ?_
      refine (nested.expression.mono (.refl _) (by decide) (.refl _)).after?_bind (.refl _)
        (by decide) fun condition => ?_
      exact ih (fun bound => limit bound - 1) _
    refine longer.bounded fun bound => ?_
    cases limit bound with
    | zero => exact .inl rfl
    | succ most => exact .inr rfl

/-- A source is one table. -/
theorem source (nested : Completing starving inner) :
    Steady [.name] either (Grammar.source starving) (fun bound => Grammar.source (inner bound))
      closes [false] :=
  (joined nested).bind (.refl _) fun first => joins nested _ _ first

end Sources

end Steady

namespace Completing

/-- Rules that give up are completed, and finish whatever the bound on nesting. -/
theorem zero (bound : Nat) : Completing (rules 0) fun _ => rules bound := by
  induction bound with
  | zero =>
    exact ⟨⟨fun _ => .exhausted, .exhausted⟩, ⟨fun _ => .exhausted, .exhausted⟩,
      ⟨fun _ => .exhausted, .exhausted⟩⟩
  | succ bound nested =>
    exact ⟨⟨(Steady.expression nested).finishes, .exhausted⟩,
      ⟨(Steady.operand nested).finishes, .exhausted⟩,
      ⟨(Steady.source nested).finishes, .exhausted⟩⟩

/-- The rules of the grammar are completed, whatever the bounds on nesting. -/
theorem nested (most : Nat) (limit : Nat → Nat) :
    Completing (rules most) fun bound => rules (limit bound) := by
  -- The starving rules give the depth, and the others may give up before it is reached.
  induction most generalizing limit with
  | zero =>
    have gives : ∀ bound, Completing (rules 0) fun _ => rules (limit bound) := fun bound =>
      zero (limit bound)
    exact ⟨⟨fun bound => (gives bound).expression.finishes bound, .exhausted⟩,
      ⟨fun bound => (gives bound).operand.finishes bound, .exhausted⟩,
      ⟨fun bound => (gives bound).source.finishes bound, .exhausted⟩⟩
  | succ most ih =>
    have inner := ih fun bound => limit bound - 1
    refine ⟨(Steady.expression inner).bounded fun bound => ?_,
      (Steady.operand inner).bounded fun bound => ?_,
      (Steady.source inner).bounded fun bound => ?_⟩ <;>
    cases limit bound with
    | zero => exact .inl rfl
    | succ bound => exact .inr rfl

end Completing

end SelectSql
