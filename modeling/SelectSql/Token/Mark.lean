/-! Operators and structural punctuation. -/

namespace SelectSql

/-- A punctuation mark of one or two characters. -/
inductive Mark where
  | lessOrEqual | lessGreater | bangEqual | greaterOrEqual | doubleColon
  | less | greater | equal | openParen | closeParen | dot | star | comma | slash | plus | minus
  | openBracket | closeBracket
  deriving DecidableEq, Repr

namespace Mark

/-- Every mark, those of two characters first, so that a search by leading characters is greedy. -/
def all : List Mark :=
  -- A mark of one character may begin one of two, so the longer ones stand first.
  [lessOrEqual, lessGreater, bangEqual, greaterOrEqual, doubleColon,
    less, greater, equal, openParen, closeParen, dot, star, comma, slash, plus, minus,
    openBracket, closeBracket]

/-- The characters of a mark. -/
def chars : Mark → List Char
  -- Marks are given by characters because they are matched against the text character by character.
  | lessOrEqual => ['<', '=']
  | lessGreater => ['<', '>']
  | bangEqual => ['!', '=']
  | greaterOrEqual => ['>', '=']
  | doubleColon => [':', ':']
  | less => ['<']
  | greater => ['>']
  | equal => ['=']
  | openParen => ['(']
  | closeParen => [')']
  | dot => ['.']
  | star => ['*']
  | comma => [',']
  | slash => ['/']
  | plus => ['+']
  | minus => ['-']
  | openBracket => ['[']
  | closeBracket => [']']

/-- The text of a mark. -/
def text (mark : Mark) : String :=
  -- The text is the characters in a row.
  String.ofList mark.chars

/-- The mark with exactly this text. -/
def ofText? (text : String) : Option Mark :=
  -- No two marks have the same text, so the order of search does not matter here.
  all.find? fun mark => mark.text == text

/-- The longest mark that the characters begin with. -/
def leading? (chars : List Char) : Option Mark :=
  -- The first hit in the list is the longest, since longer marks are listed before shorter ones.
  all.find? fun mark => mark.chars.isPrefixOf chars

/-- The list of marks omits none. -/
theorem mem_all (mark : Mark) : mark ∈ all := by
  -- The list names every constructor.
  cases mark <;> decide

end Mark

end SelectSql
