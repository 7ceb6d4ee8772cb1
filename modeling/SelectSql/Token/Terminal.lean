import SelectSql.Token.Keyword
import SelectSql.Token.Mark

/-! The fixed symbols of the grammar, keywords and marks alike. -/

namespace SelectSql

/-- A symbol with one spelling: a keyword or a mark. -/
inductive Terminal where
  | keyword (word : Keyword)
  | mark (sign : Mark)
  deriving DecidableEq, Repr

/-- The printed spelling: keywords in capitals, marks as they are. -/
def Terminal.text : Terminal → String
  -- Only words have case, so marks are printed as they are read.
  | .keyword word => word.capitals
  | .mark sign => sign.text

/-- The printed spelling of several symbols in a row, one space between neighbours. -/
def spellTerminals (terminals : List Terminal) : String :=
  -- A single symbol has no neighbour and so no space.
  " ".intercalate (terminals.map Terminal.text)

end SelectSql
