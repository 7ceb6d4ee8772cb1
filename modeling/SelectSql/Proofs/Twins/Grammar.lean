import SelectSql.Grammar.Progress
import SelectSql.Proofs.Twins.Alike

/-!
Every rule of the grammar keeps two runs in step, whatever the bounds on nesting of the two. Rules
look at what tokens say, and only refusals show the tokens themselves.
-/

namespace SelectSql

/-- A name or a literal has its text in its lexeme. -/
theorem Token.Like.text {token other : Token} (like : token.Like other)
    (said : other.kind = .identifier ∨ other.kind = .literal) : token.text = other.text := by
  -- The lexeme of a name or a literal holds its text, unlike that of a mark.
  have same := like.lexeme
  unfold Token.lexeme at same
  rcases said with kind | kind
  · simpa only [like.kind, kind, Lexeme.name.injEq] using same
  · simpa only [like.kind, kind, Lexeme.literal.injEq] using same

variable {Stage σ τ : Type} [Preorder Stage] [TokenStream σ] [TokenStream τ]
  {twins : Twins Stage σ τ} {stage : Stage}

open Grammar

/-- Rules for nested text that keep two runs in step. -/
structure Twins.Nested (twins : Twins Stage σ τ) (inner : Rules σ) (other : Rules τ) : Prop where
  /-- Expressions are read in step. -/
  expression : twins.Alike inner.expression other.expression
  /-- Operands are read in step. -/
  operand : twins.Alike inner.operand other.operand
  /-- Sources are read in step. -/
  source : twins.Alike inner.source other.source

variable {inner : Rules σ} {other : Rules τ}

namespace Twins.Alike

section Expressions

/-- Arguments are read in step. -/
theorem arguments (nested : twins.Nested inner other) :
    twins.Alike (Grammar.arguments inner) (Grammar.arguments other) := by
  -- The token that is looked at decides whether there are arguments, and like tokens decide alike.
  refine skipSpace.bind fun _ => peek_bind fun stage token twin seen => ?_
  rw [token.isMark_eq, twin.isMark_eq, (twins.like seen).lexeme]
  split
  · exact .pure rfl
  · exact nested.expression.separated _ _ stage

/-- What follows a name is read in step. -/
theorem named (nested : twins.Nested inner other) (name : String) :
    twins.Alike (Grammar.named inner name) (Grammar.named other name) := by
  refine (eatMark .openParen).bind fun called => ?_
  -- A parenthesis makes a call, a point a qualified name, and neither leaves the name alone.
  cases called with
  | true => exact ((arguments nested).closedBy .closeParen).reshape
  | false =>
    refine (eatMark .dot).bind fun qualified => ?_
    cases qualified with
    | true => exact (require Lexeme.member? Token.member?_eq).reshape
    | false => exact pure _

/-- One branch is read in step. -/
theorem branchLap (nested : twins.Nested inner other) :
    twins.Alike (Grammar.branchLap inner) (Grammar.branchLap other) := by
  -- The word `WHEN` after a branch says whether another one follows.
  refine nested.expression.bind fun condition => (requireKeyword .then_).bind fun _ => ?_
  exact nested.expression.bind fun result => (eatKeyword .when).reshape

/-- Branches are read in step, whatever the bounds on their number. -/
theorem branches (nested : twins.Nested inner other) (bound most : Nat) :
    twins.Alike (Grammar.branches inner bound) (Grammar.branches other most) := by
  -- Both runs go round once for each branch.
  induction bound generalizing most with
  | zero => exact firstExhausted
  | succ bound ih =>
    cases most with
    | zero => exact secondExhausted
    | succ most =>
      rw [branches_succ, branches_succ]
      refine (branchLap nested).bind fun lap => ?_
      split
      · exact (ih most).reshape
      · exact pure _

/-- A choice is read in step. -/
theorem choice (nested : twins.Nested inner other) :
    twins.Alike (Grammar.choice inner) (Grammar.choice other) := by
  have space : twins.Alike
      (Parsing.require .whitespace fun token => if token.isSpace then some () else none)
      (Parsing.require .whitespace fun token => if token.isSpace then some () else none) :=
    require (fun lexeme => if lexeme == .space then some () else none) fun token => by
      rw [token.isSpace_eq]
  -- A subject is left out exactly where `WHEN` stands next, which both tokens tell.
  have subject : twins.Alike (Grammar.subject? inner) (Grammar.subject? other) := by
    refine peek_bind fun stage token twin seen => ?_
    rw [token.isKeyword_eq, twin.isKeyword_eq, (twins.like seen).lexeme]
    split
    · exact .pure rfl
    · exact nested.expression.reshape stage
  -- The parts of a choice come in a row, each in step.
  refine space.bind fun _ => subject.bind fun subject => (requireKeyword .when).bind fun _ => ?_
  refine (branches nested _ _).bind fun branches => ?_
  refine (nested.expression.after? .else_).bind fun otherwise => ?_
  exact (requireKeyword .end_).reshape

/-- An atom is read in step. -/
theorem atom (nested : twins.Nested inner other) :
    twins.Alike (Grammar.atom inner) (Grammar.atom other) := by
  refine next_bind fun stage token twin seen => ?_
  have like := twins.like seen
  rw [like.kind]
  -- The category of the tokens decides, and their text is what is left of them.
  cases kind : twin.kind with
  | literal =>
    rw [like.text (Or.inr kind)]
    exact .pure rfl
  | identifier =>
    rw [like.text (Or.inl kind)]
    exact named nested _ stage
  | keyword word =>
    cases word with
    | null => exact .pure rfl
    | case => exact choice nested stage
    | _ => exact .unexpected seen
  -- A mark is the star or an opening parenthesis, or it begins no atom.
  | mark =>
    simp only [Token.isMark_eq, like.lexeme]
    split
    · exact .pure rfl
    split
    · exact (nested.expression.closedBy .closeParen).reshape stage
    · exact .unexpected seen
  | space => exact .unexpected seen
  | eof => exact .unexpected seen

/-- An operand is read in step. -/
theorem operand (nested : twins.Nested inner other) :
    twins.Alike (Grammar.operand inner) (Grammar.operand other) := by
  -- An operand is an atom with an optional subscript and an optional conversion.
  have subscripted : ∀ value, twins.Alike (subscripted inner value) (subscripted other value) := by
    intro value
    refine (eatMark .openBracket).bind fun indexed => ?_
    cases indexed with
    | true =>
      exact (nested.expression.closedBy .closeBracket).bind fun index => skipSpace.reshape
    | false => exact pure _
  have converted : ∀ value, twins.Alike (converted inner value) (converted other value) := by
    intro value
    refine (eatMark .doubleColon).bind fun typed => ?_
    cases typed with
    | true => exact skipSpace.bind fun _ => (atom nested).bind fun target => skipSpace.reshape
    | false => exact pure _
  refine skipSpace.bind fun _ => ?_
  refine (accept? Lexeme.unaryOp? Token.unaryOp?_eq).bind fun sign => ?_
  cases sign with
  -- Behind a sign stands another operand.
  | some op => exact nested.operand.reshape
  | none =>
    refine (atom nested).bind fun value => skipSpace.bind fun _ => ?_
    refine (subscripted value).bind fun value => (converted value).bind fun value => ?_
    -- An arithmetic operator leads to another operand on its right.
    refine (accept? _ fun token => token.binaryOp?_eq BinaryOp.isArithmetic).bind fun link => ?_
    cases link with
    | some op => exact nested.operand.reshape
    | none => exact pure _

/-- What follows an operand is read in step, after a `NOT` that was taken in step. -/
theorem predicateOf (nested : twins.Nested inner other) (left : Node) {negation : Option Token}
    {denial : Option Token} (same : Option.Rel (twins.tokens stage) negation denial) :
    twins.AlikeAt stage (fun _ => Eq) (Grammar.predicateOf inner left negation)
      (Grammar.predicateOf other left denial) := by
  -- Only whether there is a `NOT` shapes the tree. The tokens themselves show in a refusal alone.
  have negated : negation.isSome = denial.isSome := by
    cases same with
    | some _ => rfl
    | none => rfl
  unfold Grammar.predicateOf
  rw [negated]
  -- The stage is followed by hand, since the refusal at the end names a token seen before.
  refine (skipSpace stage).bind fun spaced _ _ after _ => ?_
  refine (eatKeyword .between spaced).bind fun ranged between _ follows found => ?_
  have after := le_trans after follows
  subst found
  cases between with
  | true =>
    refine AlikeAt.bind (nested.operand ranged) fun _ low _ _ found => ?_
    subst found
    exact (requireKeyword .and).bind (fun _ => nested.operand.reshape) _
  | false =>
    refine (eatKeyword .in_ ranged).bind fun listed among _ follows found => ?_
    have after := le_trans after follows
    subst found
    cases among with
    | true =>
      refine Alike.bind skipSpace (fun _ => (requireMark .openParen).bind fun _ => ?_) listed
      refine ((nested.expression.separated _ _).closedBy .closeParen).bind fun items => ?_
      exact skipSpace.reshape
    | false =>
      have matching : twins.Alike (Parsing.accept? (Token.binaryOp? BinaryOp.isMatch))
          (Parsing.accept? (Token.binaryOp? BinaryOp.isMatch)) :=
        accept? _ fun token => token.binaryOp?_eq _
      refine (matching listed).bind fun later sign _ follows found => ?_
      have after := le_trans after follows
      subst found
      cases sign with
      | some op => exact nested.operand.reshape later
      | none =>
        cases same with
        -- A `NOT` with no predicate behind it is refused, in both streams.
        | some seen => exact .unexpected (twins.kept after seen)
        | none => exact .pure rfl

/-- An expression is read in step. -/
theorem expression (nested : twins.Nested inner other) :
    twins.Alike (Grammar.expression inner) (Grammar.expression other) := by
  have predicate : twins.Alike (Grammar.predicate inner) (Grammar.predicate other) := by
    refine (operand nested).bind fun left stage => ?_
    -- The `NOT` is kept as a token, which is the same in category only.
    have means : ∀ token twin, twins.tokens stage token twin → Option.Rel
        (fun taken given => ∀ later, stage ≤ later → twins.tokens later taken given)
        (if token.isKeyword .not then some token else none)
        (if twin.isKeyword .not then some twin else none) := by
      intro token twin seen
      rw [token.isKeyword_eq, twin.isKeyword_eq, (twins.like seen).lexeme]
      split
      · exact .some fun later after => twins.kept after seen
      · exact .none
    exact (AlikeAt.accept? means).bind fun later _ _ _ same => predicateOf nested left same
  have negated : ∀ op, twins.Alike (withNot op) (withNot op) := by
    intro op
    unfold withNot
    split
    · exact skipSpace.bind fun _ => (eatKeyword .not).reshape
    · exact pure _
  -- A link leads to another expression on its right.
  refine predicate.bind fun left => ?_
  refine (accept? _ fun token => token.binaryOp?_eq BinaryOp.isLink).bind fun link => ?_
  cases link with
  | some op => exact (negated op).bind fun op => nested.expression.reshape
  | none => exact pure _

end Expressions

section Statements

/-- A projection is read in step. -/
theorem projection (nested : twins.Nested inner other) :
    twins.Alike (Grammar.projection inner) (Grammar.projection other) := by
  refine nested.expression.bind fun value => (eatKeyword .as).bind fun named => ?_
  cases named with
  | true => exact skipSpace.bind fun _ => requireIdentifier.reshape
  | false => exact pure _

/-- Projections are read in step. -/
theorem projections? (nested : twins.Nested inner other) :
    twins.Alike (Grammar.projections? inner) (Grammar.projections? other) := by
  refine peek_bind fun stage token twin seen => ?_
  have like := twins.like seen
  -- The words that end the empty list are told by the lexeme, the end of input by the category.
  simp only [Token.isKeyword_eq, Token.isEof, like.lexeme, like.kind]
  split
  · exact .pure rfl
  · exact ((projection nested).separated _ _).bind (fun items => skipSpace.reshape) stage

/-- A sort key is read in step. -/
theorem sortKey (nested : twins.Nested inner other) :
    twins.Alike (Grammar.sortKey inner) (Grammar.sortKey other) := by
  refine nested.expression.bind fun key => ?_
  refine (accept? _ Token.direction?_eq).bind fun direction => skipSpace.bind fun _ => ?_
  refine Alike.bind (after? .nulls ?_) fun nulls => skipSpace.reshape
  exact skipSpace.bind fun _ => require _ Token.nullsPlace?_eq

/-- A statement is read in step. -/
theorem select (nested : twins.Nested inner other) :
    twins.Alike (Grammar.select inner) (Grammar.select other) := by
  have byList : ∀ {α : Type} {item : Parsing σ α} {twin : Parsing τ α}, twins.Alike item twin →
      twins.Alike (byList inner item) (byList other twin) := by
    intro _ _ _ item
    exact skipSpace.bind fun _ => (requireKeyword .by_).bind fun _ => item.separated _ _
  have rowCount : twins.Alike (rowCount inner) (rowCount other) :=
    skipSpace.bind fun _ => (atom nested).bind fun value => skipSpace.reshape
  -- The clauses come in a fixed order, each of them optional and read in step.
  refine (requireKeyword .select).bind fun _ => skipSpace.bind fun _ => ?_
  refine (eatKeyword .distinct).bind fun distinct => skipSpace.bind fun _ => ?_
  refine (projections? nested).bind fun projections => ?_
  refine (after? .from_ (nested.source.separated _ _)).bind fun sources => ?_
  refine (after? .where_ nested.expression).bind fun filter => ?_
  refine (after? .group (byList nested.expression)).bind fun groupBy => ?_
  refine (after? .order (byList (sortKey nested))).bind fun orderBy => ?_
  refine (after? .limit rowCount).bind fun limit => ?_
  exact (after? .offset rowCount).reshape

end Statements

section Sources

/-- The words of a join are read in step. -/
theorem joinWords (first : JoinKind) : twins.Alike (joinWords first) (joinWords first) := by
  -- The word `OUTER` is optional after two of the kinds and required after the third.
  have outer : twins.Alike (outer first) (outer first) := by
    cases first with
    | left => exact (eatKeyword .outer).reshape
    | right => exact (eatKeyword .outer).reshape
    | fullOuter => exact (requireKeyword .outer).reshape
    | _ => exact pure _
  unfold Grammar.joinWords
  split
  · exact pure _
  · refine skipSpace.bind fun _ => outer.bind fun kind => skipSpace.bind fun _ => ?_
    exact (requireKeyword .join).reshape

/-- A member of a join is read in step. -/
theorem joined (nested : twins.Nested inner other) :
    twins.Alike (Grammar.joined inner) (Grammar.joined other) := by
  have table : twins.Alike tableName tableName := by
    refine requireIdentifier.bind fun first => (eatMark .dot).bind fun qualified => ?_
    cases qualified with
    | true => exact requireIdentifier.reshape
    | false => exact pure _
  -- A member is a source in parentheses, a statement, or the name of a table.
  have unnamed : twins.Alike (unnamedSource inner) (unnamedSource other) := by
    refine (eatMark .openParen).bind fun opened => ?_
    cases opened with
    | true => exact (nested.source.closedBy .closeParen).reshape
    | false =>
      refine peek_bind fun stage token twin seen => ?_
      simp only [Token.isKeyword_eq, (twins.like seen).lexeme]
      split
      · exact (select nested).reshape stage
      · exact table stage
  refine skipSpace.bind fun _ => unnamed.bind fun source => skipSpace.bind fun _ => ?_
  -- A name may follow with `AS` or without it.
  refine (eatKeyword .as).bind fun named => ?_
  cases named with
  | true => exact skipSpace.bind fun _ => requireIdentifier.reshape
  | false =>
    refine (accept? _ Token.name?_eq).bind fun name => ?_
    cases name with
    | some name => exact pure _
    | none => exact pure _

/-- One more join is read in step, if there is one. -/
theorem joinLap (nested : twins.Nested inner other) (left : Node) :
    twins.Alike (Grammar.joinLap inner left) (Grammar.joinLap other left) := by
  refine skipSpace.bind fun _ => (accept? _ Token.joinKind?_eq).bind fun first? => ?_
  cases first? with
  -- With no further word of a join the sources are complete.
  | none => exact pure _
  | some first =>
    refine Alike.reshape ((joinWords first).bind fun kind => (joined nested).bind fun right => ?_)
    exact skipSpace.bind fun _ => (nested.expression.after? .on).reshape

/-- Joins are read in step, whatever the bounds on their number. -/
theorem joins (nested : twins.Nested inner other) (bound most : Nat) (left : Node) :
    twins.Alike (Grammar.joins inner bound left) (Grammar.joins other most left) := by
  -- Both runs go round once for each join, and once more to find that there is none.
  induction bound generalizing most left with
  | zero => exact firstExhausted
  | succ bound ih =>
    cases most with
    | zero => exact secondExhausted
    | succ most =>
      rw [joins_succ, joins_succ]
      refine (joinLap nested left).bind fun further? => ?_
      cases further? with
      | none => exact pure _
      | some further => exact ih most further

/-- A source is read in step. -/
theorem source (nested : twins.Nested inner other) :
    twins.Alike (Grammar.source inner) (Grammar.source other) :=
  (joined nested).bind fun first => joins nested _ _ first

end Sources

end Twins.Alike

/-- The rules of the grammar keep two runs in step, whatever the bounds on nesting. -/
theorem Twins.nested (bound most : Nat) : twins.Nested (rules bound) (rules most) := by
  -- Each level relies on the level below it, and below the lowest nothing comes to an end.
  induction bound generalizing most with
  | zero => exact ⟨.firstExhausted, .firstExhausted, .firstExhausted⟩
  | succ bound ih =>
    cases most with
    | zero => exact ⟨.secondExhausted, .secondExhausted, .secondExhausted⟩
    | succ most =>
      exact ⟨.expression (ih most), .operand (ih most), .source (ih most)⟩

end SelectSql
