import SelectSql.Proofs.Lexical.Remaining

/-! What a lexeme means as an operator, a direction or the first word of a join. -/

namespace SelectSql

namespace Lexeme

/-- The binary operator that a lexeme spells, among those that pass a test. -/
def binaryOp? (admitted : BinaryOp → Bool) (lexeme : Lexeme) : Option BinaryOp :=
  (lexeme.terminal?.bind BinaryOp.ofTerminal?).filter admitted

/-- The unary operator that a lexeme spells. -/
def unaryOp? (lexeme : Lexeme) : Option UnaryOp :=
  lexeme.terminal?.bind UnaryOp.ofTerminal?

/-- The text of a name. -/
def name? : Lexeme → Option String
  | name text => some text
  | _ => none

/-- The text of a member after a dot: a name or a star. -/
def member? : Lexeme → Option String
  | symbol (.mark .star) => some "*"
  | lexeme => lexeme.name?

/-- The direction that a lexeme spells. -/
def direction? : Lexeme → Option SortOption
  | symbol (.keyword .asc) => some .asc
  | symbol (.keyword .desc) => some .desc
  | _ => none

/-- The place of nulls that a lexeme spells after `NULLS`. -/
def nullsPlace? : Lexeme → Option SortOption
  | symbol (.keyword .first) => some .nullsFirst
  | symbol (.keyword .last) => some .nullsLast
  | _ => none

/-- The kind of join that a lexeme begins. -/
def joinKind? : Lexeme → Option JoinKind
  | symbol (.keyword .join) => some .plain
  | symbol (.keyword .inner) => some .inner
  | symbol (.keyword .cross) => some .cross
  | symbol (.keyword .left) => some .left
  | symbol (.keyword .right) => some .right
  | symbol (.keyword .full) => some .fullOuter
  | _ => none

end Lexeme

namespace Token

variable (token : Token)

/-- A token means the binary operator that its lexeme spells. -/
theorem binaryOp?_eq (admitted : BinaryOp → Bool) :
    token.binaryOp? admitted = token.lexeme.binaryOp? admitted := by
  rw [binaryOp?, terminal?_eq]
  rfl

/-- A token means the unary operator that its lexeme spells. -/
theorem unaryOp?_eq : token.unaryOp? = token.lexeme.unaryOp? := by
  rw [unaryOp?, terminal?_eq]
  rfl

/-- A token is a name if its lexeme is. -/
theorem name?_eq : (if token.kind = .identifier then some token.text else none) =
    token.lexeme.name? := by
  unfold lexeme
  cases token.kind with
  -- A mark is never a name, whether or not its text is that of a mark in the table.
  | mark => cases Mark.ofText? token.text <;> rfl
  | _ => rfl

/-- A token is a member if its lexeme is. -/
theorem member?_eq : (if token.kind == .identifier || token.isMark .star then some token.text
    else none) = token.lexeme.member? := by
  rw [isMark_eq]
  unfold lexeme
  cases token.kind with
  | mark =>
    -- A star is known by its text, so the two texts are the same.
    cases found : Mark.ofText? token.text with
    | none => simp [Lexeme.member?, Lexeme.name?]
    | some sign =>
      have text := Mark.ofText?_eq_some.1 found
      cases sign <;> simp only [Lexeme.member?, Lexeme.name?, text] <;> rfl
  | _ => rfl

/-- A token means the direction that its lexeme spells. -/
theorem direction?_eq : token.direction? = token.lexeme.direction? := by
  unfold direction? lexeme
  cases token.kind with
  -- Two of the keywords are directions.
  | keyword word => cases word <;> rfl
  | mark => cases Mark.ofText? token.text <;> rfl
  | _ => rfl

/-- A token means the place of nulls that its lexeme spells. -/
theorem nullsPlace?_eq : token.nullsPlace? = token.lexeme.nullsPlace? := by
  unfold nullsPlace? lexeme
  cases token.kind with
  -- Two of the keywords are places of nulls.
  | keyword word => cases word <;> rfl
  | mark => cases Mark.ofText? token.text <;> rfl
  | _ => rfl

/-- A token begins the join that its lexeme begins. -/
theorem joinKind?_eq : token.joinKind? = token.lexeme.joinKind? := by
  unfold joinKind? lexeme
  cases token.kind with
  -- Six of the keywords begin joins, and each of them a kind of its own.
  | keyword word => cases word <;> rfl
  | mark => cases Mark.ofText? token.text <;> rfl
  | _ => rfl

end Token

/-- The first symbol of an operator, which is the only one unless it is a negated `IS`. -/
def BinaryOp.sign (op : BinaryOp) : Lexeme :=
  match op.terminals with
  | first :: _ => .symbol first
  | [] => .foreign

/-- An operator is found by its symbol, unless it takes two. -/
theorem Lexeme.binaryOp?_eq_some {admitted : BinaryOp → Bool} {lexeme : Lexeme} {op : BinaryOp} :
    lexeme.binaryOp? admitted = some op ↔ lexeme = op.sign ∧ op ≠ .isNot ∧ admitted op = true := by
  constructor
  · intro found
    obtain ⟨spelled, passes⟩ := Option.filter_eq_some_iff.1 found
    obtain ⟨terminal, symbol, search⟩ := Option.bind_eq_some_iff.1 spelled
    -- What is found is spelled by this one symbol, and is its first.
    have single := List.find?_some search
    rw [beq_iff_eq] at single
    refine ⟨?_, ?_, passes⟩
    · rw [BinaryOp.sign, single]
      cases lexeme with
      | symbol other => rw [Option.some.inj symbol]
      | _ => cases symbol
    · -- A negated `IS` takes two symbols, so it is never found by one.
      rintro rfl
      cases single
  · rintro ⟨rfl, single, passes⟩
    -- Each operator but the negated `IS` is the first in the list with its symbol.
    have found : (op.sign.terminal?.bind BinaryOp.ofTerminal?) = some op := by
      cases op <;> first | rfl | exact absurd rfl single
    rw [Lexeme.binaryOp?, found, Option.filter_some, if_pos passes]

/-- A unary operator is found by its symbol. -/
theorem Lexeme.unaryOp?_eq_some {lexeme : Lexeme} {op : UnaryOp} :
    lexeme.unaryOp? = some op ↔ lexeme = .symbol op.terminal := by
  constructor
  · intro found
    obtain ⟨terminal, symbol, search⟩ := Option.bind_eq_some_iff.1 found
    -- The operator that is found is the one with this symbol.
    have single := List.find?_some search
    rw [beq_iff_eq] at single
    cases lexeme with
    | symbol other => rw [Option.some.inj symbol, single]
    | _ => cases symbol
  · rintro rfl
    cases op <;> rfl

end SelectSql
