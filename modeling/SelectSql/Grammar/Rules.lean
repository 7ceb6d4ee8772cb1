import SelectSql.Grammar.Parsing
import SelectSql.Syntax.Tree

/-! The rules that the grammar calls on nested text. -/

namespace SelectSql.Grammar

/-- The rules for nested text, called only after a token of the outer text is taken. -/
structure Rules (σ : Type) where
  /-- The number of items that a list may have. -/
  bound : Nat
  /-- Reads an expression and the white space on both sides of it. -/
  expression : Parsing σ Node
  /-- Reads an operand and the white space on both sides of it. -/
  operand : Parsing σ Node
  /-- Reads a source of rows and the white space on both sides of it. -/
  source : Parsing σ Node

end SelectSql.Grammar
