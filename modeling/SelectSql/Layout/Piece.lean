import SelectSql.Token.Terminal

/-! The pieces that printed text is made of. -/

namespace SelectSql

/-- A piece of printed text. -/
inductive Piece where
  /-- A keyword or a mark. -/
  | symbol (terminal : Terminal)
  /-- A literal or a name, as the tree holds it. -/
  | verbatim (text : String)
  /-- A single space. -/
  | space
  /-- A line break and the spaces that indent the new line. -/
  | line (indent : Nat)
  /-- What comes before a connective: a line break of a given indentation, or else a space. -/
  | joint (indent : Option Nat)
  deriving DecidableEq, Repr

namespace Piece

/-- A keyword. -/
def keyword (word : Keyword) : Piece :=
  -- Keywords are printed in capitals, as every symbol of their kind is.
  symbol (.keyword word)

/-- A mark. -/
def mark (sign : Mark) : Piece :=
  -- Marks are printed as they are read.
  symbol (.mark sign)

/-- A line break and the spaces after it. -/
def lineText (indent : Nat) : String :=
  -- No space precedes the break, so lines end in what was printed last.
  String.ofList ('\n' :: List.replicate indent ' ')

/-- The characters of a piece. -/
def text : Piece → String
  -- A joint is the one piece whose shape depends on where it stands.
  | symbol terminal => terminal.text
  | verbatim text => text
  | space => " "
  | line indent => lineText indent
  | joint none => " "
  | joint (some indent) => lineText indent

/-- The text that pieces make in a row. -/
def concat (pieces : List Piece) : String :=
  -- Pieces carry their own spacing, so nothing is put between them.
  String.join (pieces.map text)

/-- Symbols with a space between neighbours. -/
def spaced (terminals : List Terminal) : List Piece :=
  -- No space precedes the first symbol or follows the last.
  (terminals.map symbol).intersperse space

/-- Keywords with a space between neighbours. -/
def words (keywords : List Keyword) : List Piece :=
  -- Keywords are symbols, and separated as such.
  spaced (keywords.map .keyword)

end Piece

end SelectSql
