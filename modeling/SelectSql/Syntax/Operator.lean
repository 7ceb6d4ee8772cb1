import SelectSql.Token.Terminal

/-! Binary and unary operators and their spellings. -/

namespace SelectSql

/-- An operator between two operands. -/
inductive BinaryOp where
  | and | or | is | isNot
  | between | in_ | like | ilike
  | equal | lessGreater | bangEqual | less | lessOrEqual | greater | greaterOrEqual
  | add | subtract | multiply | divide
  deriving DecidableEq, Repr

namespace BinaryOp

/-- Every operator, loosest tier first. -/
def all : List BinaryOp :=
  -- Both spellings of inequality are listed, since each is kept as it was written.
  [and, or, is, isNot, between, in_, like, ilike,
    equal, lessGreater, bangEqual, less, lessOrEqual, greater, greaterOrEqual,
    add, subtract, multiply, divide]

/-- The symbols that spell the operator. -/
def terminals : BinaryOp → List Terminal
  -- Only the negated `IS` takes two symbols.
  | and => [.keyword .and]
  | or => [.keyword .or]
  | is => [.keyword .is]
  | isNot => [.keyword .is, .keyword .not]
  | between => [.keyword .between]
  | in_ => [.keyword .in_]
  | like => [.keyword .like]
  | ilike => [.keyword .ilike]
  | equal => [.mark .equal]
  | lessGreater => [.mark .lessGreater]
  | bangEqual => [.mark .bangEqual]
  | less => [.mark .less]
  | lessOrEqual => [.mark .lessOrEqual]
  | greater => [.mark .greater]
  | greaterOrEqual => [.mark .greaterOrEqual]
  | add => [.mark .plus]
  | subtract => [.mark .minus]
  | multiply => [.mark .star]
  | divide => [.mark .slash]

/-- The printed spelling of the operator. -/
def text (op : BinaryOp) : String :=
  -- Words are printed in capitals however they were written.
  spellTerminals op.terminals

/-- The name under which the operator is stored. -/
def name : BinaryOp → String
  -- Names are those of the stored form and differ from the spellings.
  | and => "And"
  | or => "Or"
  | is => "Is"
  | isNot => "IsNot"
  | between => "Between"
  | in_ => "In"
  | like => "Like"
  | ilike => "Ilike"
  | equal => "Eq"
  | lessGreater => "NotEq"
  | bangEqual => "BangEq"
  | less => "Lt"
  | lessOrEqual => "LtEq"
  | greater => "Gt"
  | greaterOrEqual => "GtEq"
  | add => "Add"
  | subtract => "Sub"
  | multiply => "Mul"
  | divide => "Div"

/-- The operator stored under a name; the case of its letters matters. -/
def ofName? (name : String) : Option BinaryOp :=
  -- No two operators share a name, so at most one fits.
  all.find? fun op => op.name == name

/-- The operator that a symbol alone spells. -/
def ofTerminal? (terminal : Terminal) : Option BinaryOp :=
  -- A spelling of two symbols equals no single one, so `IS NOT` is never found here.
  all.find? fun op => op.terminals == [terminal]

/-- The operator that a punctuation text spells. -/
def ofPunctuation? (text : String) : Option BinaryOp :=
  -- Words are no punctuation, so only signs are found.
  (Mark.ofText? text).bind fun sign => ofTerminal? (.mark sign)

/-- Whether the operator joins conditions, so that a line may break before it. -/
def isConnective : BinaryOp → Bool
  -- The two connectives stand alone in the loosest tier, beside `IS`.
  | and | or => true
  | _ => false

/-- Whether the operator is a comparison sign; LIKE and ILIKE are words and do not count. -/
def isComparison : BinaryOp → Bool
  -- The seven signs are exactly those made of angle, equality and exclamation characters.
  | equal | lessGreater | bangEqual | less | lessOrEqual | greater | greaterOrEqual => true
  | _ => false

/-- Whether the operator is one of the four of arithmetic. -/
def isArithmetic : BinaryOp → Bool
  -- All four share one tier and group to the right.
  | add | subtract | multiply | divide => true
  | _ => false

/-- Whether the operator makes a predicate of two operands. -/
def isMatch (op : BinaryOp) : Bool :=
  -- `BETWEEN` and `IN` are left out because what follows them is no plain operand.
  op.isComparison || op == .like || op == .ilike

/-- Whether the operator joins a predicate to the expression after it; `IS` may take a `NOT`. -/
def isLink (op : BinaryOp) : Bool :=
  -- What follows one of these is a whole expression and not only an operand.
  op.isConnective || op == .is

/-- The list of operators omits none. -/
theorem mem_all (op : BinaryOp) : op ∈ all := by
  -- The list names every constructor.
  cases op <;> decide

/-- A stored name leads back to its operator. -/
theorem ofName?_name (op : BinaryOp) : ofName? op.name = some op := by
  -- The names are distinct, so the search stops at the operator itself.
  cases op <;> decide

end BinaryOp

/-- An operator before a single operand. -/
inductive UnaryOp where
  | plus | minus | not | distinct
  deriving DecidableEq, Repr

namespace UnaryOp

/-- Every unary operator. -/
def all : List UnaryOp :=
  -- The two signs are binary operators as well; the two words are not.
  [plus, minus, not, distinct]

/-- The symbol that spells the operator. -/
def terminal : UnaryOp → Terminal
  | plus => .mark .plus
  | minus => .mark .minus
  | not => .keyword .not
  | distinct => .keyword .distinct

/-- The printed spelling of the operator. -/
def text (op : UnaryOp) : String :=
  -- Every unary operator is spelled by a single symbol.
  op.terminal.text

/-- The name under which the operator is stored. -/
def name : UnaryOp → String
  -- The two signs have names of their own here, unlike those of addition and subtraction.
  | plus => "Plus"
  | minus => "Minus"
  | not => "Not"
  | distinct => "Distinct"

/-- The operator stored under a name; the case of its letters matters. -/
def ofName? (name : String) : Option UnaryOp :=
  -- No two operators share a name, so at most one fits.
  all.find? fun op => op.name == name

/-- The operator that a symbol spells. -/
def ofTerminal? (terminal : Terminal) : Option UnaryOp :=
  -- No two operators share a symbol, so at most one fits.
  all.find? fun op => op.terminal == terminal

/-- Whether the operator is a word, which a space separates from its operand. -/
def isWord : UnaryOp → Bool
  | not | distinct => true
  | _ => false

/-- A stored name leads back to its operator. -/
theorem ofName?_name (op : UnaryOp) : ofName? op.name = some op := by
  -- The names are distinct, so the search stops at the operator itself.
  cases op <;> decide

end UnaryOp

end SelectSql
