import SelectSql.Proofs.Lexical.Meaning
import SelectSql.Proofs.Spelling.Slot
import SelectSql.Syntax.Tree

/-!
The grammar of expressions: which trees are expressions of which tier, and how each is spelled. An
operator after an expression belongs to it unless the tier of the operator is out of reach.
-/

namespace SelectSql

/-- How tightly an expression binds, tightest first. -/
inductive Tier where
  /-- Literals, names, calls, choices and parentheses. -/
  | atom
  /-- An atom with the index that may follow it. -/
  | indexed
  /-- An atom with its index and the conversion that may follow. -/
  | suffixed
  /-- Prefix operators and arithmetic. -/
  | operand
  /-- An operand with the predicate that may follow it. -/
  | predicate
  /-- Predicates under connectives and `IS`. -/
  | expression
  deriving DecidableEq, Repr

/-- The place of a tier among the others. -/
def Tier.rank : Tier → Nat
  | atom => 0
  | indexed => 1
  | suffixed => 2
  | operand => 3
  | predicate => 4
  | expression => 5

/-- The tier of what an operator makes. -/
def BinaryOp.tier (op : BinaryOp) : Tier :=
  -- `IS NOT` joins as `IS` does, though no single symbol spells it.
  if op.isArithmetic then .operand
  else if op.isLink || op == .isNot then .expression
  else .predicate

/-- The tier of what may be made of an expression by going on with a lexeme. -/
def Lexeme.joins? (lexeme : Lexeme) : Option Tier :=
  -- A `NOT` after an operand can only announce a predicate.
  if lexeme = .mark .openBracket then some .indexed
  else if lexeme = .mark .doubleColon then some .suffixed
  else if lexeme = .keyword .not then some .predicate
  else (lexeme.binaryOp? fun _ => true).map BinaryOp.tier

/-- The lexeme of a text that stands in a tree as it was written. -/
def Lexeme.ofText (text : String) : Lexeme :=
  -- Two literals are symbols in the text; all others begin with a digit or a quote.
  if text = "NULL" then .keyword .null
  else if text = "*" then .mark .star
  else if text.toList.head?.any fun char => char.isDigit || char == '\'' then .literal text
  else .name text

namespace Node

/-- The tier of an expression. -/
def tier : Node → Tier
  | subscript .. => .indexed
  | cast .. => .suffixed
  | unary .. => .operand
  | binary _ op _ _ => op.tier
  | _ => .atom

/-- Whether an expression read up to a tier would go on with a lexeme. -/
def takes (limit : Tier) (node : Node) (lexeme : Lexeme) : Bool :=
  -- A tier that is complete takes no second suffix or predicate.
  match lexeme.joins? with
  | some tier => node.tier.rank < tier.rank && tier.rank ≤ limit.rank
  | none => false

/-- The prefix operator at the very front of an expression, if it begins with one. -/
def leading : Node → Option UnaryOp
  | unary op _ => some op
  | binary left _ _ _ => left.leading
  | subscript value _ => value.leading
  | cast value _ => value.leading
  | _ => none

end Node

/-- Whether a lexeme would make more of a bare name that it touches. -/
def Lexeme.extendsName (lexeme : Lexeme) : Bool :=
  lexeme == .mark .openParen || lexeme == .mark .dot

/-- The slots of an expression with the white space around it, read up to a tier. -/
def pad (limit : Tier) (node : Node) (slots : List Slot) : List Slot :=
  -- What would be read as part of the expression must not follow it.
  .gap :: slots ++ [.gap, .notBefore (node.takes limit)]

/-- The slots of items with commas between them, and of what must not follow the last. -/
def commaSlots (ending : List Slot) : List (List Slot) → List Slot
  | [] => []
  | [item] => item ++ ending
  | item :: next :: items => item ++ .mark .comma :: commaSlots ending (next :: items)

/-- The end of a list, after which no comma may come. -/
def noComma : List Slot :=
  [.notBefore (· == .mark .comma)]

/-- The slots of keywords, with white space allowed between neighbours. -/
def keywordSlots : List Keyword → List Slot
  | [] => []
  | [word] => [.keyword word]
  | word :: next :: words => .keyword word :: .gap :: keywordSlots (next :: words)

/-- The slots of an operator between its operands. -/
def BinaryOp.slots : BinaryOp → List Slot
  -- A bare `IS` is one that no `NOT` follows.
  | .is => [.keyword .is, .gap, .notBefore (· == .keyword .not)]
  | .isNot => [.keyword .is, .gap, .keyword .not]
  | op => [.token op.sign]

/-- The slots of a right operand, around its own. -/
def BinaryOp.rightSlots (op : BinaryOp) (right : Node) (slots : List Slot) : List Slot :=
  -- The bounds of a range and the values of a list are delimited by themselves.
  match op with
  | .between => slots
  | .in_ => .gap :: slots ++ [.gap]
  | op => pad (if op.tier = .expression then .expression else .operand) right slots

mutual

/-- The spelling of an expression. -/
def Node.spelling : Node → List Slot
  | .literal text => [.token (.ofText text)]
  | .reference none name => [.token (.ofText name), .notTouching Lexeme.extendsName]
  | .reference (some table) member =>
    [.token (.ofText table), .mark .dot, .token (.ofText member)]
  | .call name arguments =>
    -- Only the parenthesis that touches a name makes a call of it.
    .token (.ofText name) :: .mark .openParen :: .gap ::
      commaSlots noComma (paddedAll arguments) ++ [.mark .closeParen]
  | .range low high =>
    pad .operand low low.spelling ++ .keyword .and :: pad .operand high high.spelling
  | .list items =>
    .mark .openParen :: commaSlots noComma (paddedAll items) ++ [.mark .closeParen]
  | .case subject branches otherwise =>
    .keyword .case :: .blank :: paddedOption [] subject ++ branchSlots branches
      ++ paddedOption [.keyword .else_] otherwise ++ [.keyword .end_]
  | .binary left op right negated =>
    left.spelling ++ .gap :: (if negated then [.keyword .not, .gap] else []) ++ op.slots
      ++ op.rightSlots right right.spelling
  | .unary op operand => .token (.symbol op.terminal) :: pad .operand operand operand.spelling
  | .parens inner => .mark .openParen :: pad .expression inner inner.spelling ++ [.mark .closeParen]
  | .subscript value index =>
    value.spelling ++ .gap :: .mark .openBracket :: pad .expression index index.spelling
      ++ [.mark .closeBracket]
  | .cast value target => value.spelling ++ .gap :: .mark .doubleColon :: .gap :: target.spelling
  -- Sources of rows are no expressions and have spellings of their own.
  | .aliasAs .. | .aliasBare .. | .join .. | .select .. => []

/-- The spellings of expressions, each with the white space around it. -/
def paddedAll : List Node → List (List Slot)
  | [] => []
  | node :: nodes => pad .expression node node.spelling :: paddedAll nodes

/-- The spelling of an expression that may be absent, after what announces it. -/
def paddedOption (words : List Slot) : Option Node → List Slot
  | none => []
  | some node => words ++ pad .expression node node.spelling

/-- The spelling of a branch. -/
def Branch.slots : Branch → List Slot
  | ⟨condition, result⟩ =>
    .keyword .when :: pad .expression condition condition.spelling
      ++ .keyword .then_ :: pad .expression result result.spelling

/-- The spellings of branches in a row. -/
def branchSlots : List Branch → List Slot
  | [] => []
  | branch :: branches => branch.slots ++ branchSlots branches

end

/-- The spelling of an expression with the white space around it, read up to a tier. -/
def Node.padded (limit : Tier) (node : Node) : List Slot :=
  pad limit node node.spelling

/-- The trees that are expressions of a tier. -/
inductive Formed : Tier → Node → Prop where
  | literal {text : String} (admitted : IsLiteral text ∨ text = "NULL" ∨ text = "*") :
      Formed .atom (.literal text)
  | reference {name : String} (named : IsName name) : Formed .atom (.reference none name)
  | member {table name : String} (held : IsName table) (named : IsName name ∨ name = "*") :
      Formed .atom (.reference (some table) name)
  | call {name : String} {arguments : List Node} (named : IsName name)
      (each : ∀ argument ∈ arguments, Formed .expression argument) :
      Formed .atom (.call name arguments)
  | case {subject : Option Node} {branches : List Branch} {otherwise : Option Node}
      (first : ∀ node ∈ subject, Formed .expression node) (nonempty : branches ≠ [])
      (conditions : ∀ branch ∈ branches, Formed .expression branch.condition)
      (results : ∀ branch ∈ branches, Formed .expression branch.result)
      (last : ∀ node ∈ otherwise, Formed .expression node) :
      Formed .atom (.case subject branches otherwise)
  | parens {inner : Node} (held : Formed .expression inner) : Formed .atom (.parens inner)
  | ofAtom {node : Node} (tighter : Formed .atom node) : Formed .indexed node
  | subscript {value index : Node} (base : Formed .atom value)
      (inside : Formed .expression index) : Formed .indexed (.subscript value index)
  | ofIndexed {node : Node} (tighter : Formed .indexed node) : Formed .suffixed node
  | cast {value target : Node} (base : Formed .indexed value) (type : Formed .atom target) :
      Formed .suffixed (.cast value target)
  | ofSuffixed {node : Node} (tighter : Formed .suffixed node) : Formed .operand node
  | unary {op : UnaryOp} {operand : Node} (under : Formed .operand operand) :
      Formed .operand (.unary op operand)
  | arithmetic {left right : Node} {op : BinaryOp} (sign : op.isArithmetic = true)
      (before : Formed .suffixed left) (after : Formed .operand right) :
      Formed .operand (.binary left op right false)
  | ofOperand {node : Node} (tighter : Formed .operand node) : Formed .predicate node
  | between {left low high : Node} {negated : Bool} (before : Formed .operand left)
      (lower : Formed .operand low) (upper : Formed .operand high) :
      Formed .predicate (.binary left .between (.range low high) negated)
  | in_ {left : Node} {items : List Node} {negated : Bool} (before : Formed .operand left)
      (nonempty : items ≠ []) (each : ∀ item ∈ items, Formed .expression item) :
      Formed .predicate (.binary left .in_ (.list items) negated)
  | match_ {left right : Node} {op : BinaryOp} {negated : Bool} (sign : op.isMatch = true)
      (before : Formed .operand left) (after : Formed .operand right) :
      Formed .predicate (.binary left op right negated)
  | ofPredicate {node : Node} (tighter : Formed .predicate node) : Formed .expression node
  | link {left right : Node} {op : BinaryOp} (word : op.tier = .expression)
      (before : Formed .predicate left) (after : Formed .expression right)
      (told : op = .is → right.leading ≠ some .not) :
      Formed .expression (.binary left op right false)

end SelectSql
