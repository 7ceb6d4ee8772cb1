/-! Comparison of words without regard to the case of ASCII letters. -/

namespace SelectSql

/-- Whether two texts differ at most in the case of ASCII letters. -/
def sameLetters (left right : String) : Bool :=
  -- Lowering leaves every character beyond ASCII as it is.
  left.toLower == right.toLower

end SelectSql
