/-! Sets of characters given as tables of code point ranges. -/

namespace SelectSql

/-- An inclusive range of code points. -/
structure CodeRange where
  /-- The first code point of the range. -/
  first : Nat
  /-- The last code point of the range. -/
  last : Nat

/-- Whether a code point lies in the range, ends included. -/
def CodeRange.holds (range : CodeRange) (code : Nat) : Bool :=
  -- Both ends belong to the range, so a single code point is a range of its own.
  range.first ≤ code && code ≤ range.last

/-- Whether a character lies in one of the ranges of a table. -/
def inRanges (table : List CodeRange) (char : Char) : Bool :=
  -- Ranges are few enough that a linear search serves, and order does not matter to it.
  table.any (·.holds char.toNat)

/-- A character lies in a table exactly when one listed range holds its code point. -/
theorem inRanges_iff {table : List CodeRange} {char : Char} :
    inRanges table char = true ↔
      ∃ range ∈ table, range.first ≤ char.toNat ∧ char.toNat ≤ range.last := by
  -- Both sides search the table for the same two comparisons.
  simp [inRanges, CodeRange.holds]

end SelectSql
