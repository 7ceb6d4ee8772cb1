import SelectSql.Text.Blank
import SelectSql.Token.Basic

/-! The longest token at the front of a text. -/

namespace SelectSql

/-- Whether a character may stand in a bare word: ASCII letters, digits and the underscore. -/
def isWordChar (char : Char) : Bool :=
  -- Other alphabets are reached through delimited names only.
  char.isAlphanum || char == '_'

/-- The rules of one kind of quoted text. -/
structure QuoteStyle where
  /-- The character at both ends. -/
  delimiter : Char
  /-- The category of the token. -/
  kind : TokenKind
  /-- Whether a backslash takes the next character with it. -/
  backslash : Bool
  /-- Whether two delimiters in a row stand for one inside the text. -/
  doubling : Bool
  deriving DecidableEq, Repr

namespace QuoteStyle

/-- Strings between single quotes, where only the quote itself is written specially. -/
def single : QuoteStyle :=
  -- A backslash has no meaning here, so a string may end in one.
  ⟨'\'', .literal, false, true⟩

/-- Names between double quotes, where a backslash escapes. -/
def double : QuoteStyle :=
  -- A doubled delimiter is not an escape here, so it ends one name and begins another.
  ⟨'"', .identifier, true, false⟩

/-- Names between back-ticks, where a backslash escapes and the back-tick may be doubled. -/
def backTick : QuoteStyle :=
  -- Both ways to write the delimiter inside the text are open.
  ⟨'\x60', .identifier, true, true⟩

/-- The style that an opening character begins. -/
def ofDelimiter? (char : Char) : Option QuoteStyle :=
  -- The three delimiters differ, so at most one style fits.
  [single, double, backTick].find? fun style => style.delimiter == char

/-- Splits what follows an opening delimiter just after the closing one, if there is one. -/
def close? (style : QuoteStyle) : List Char → Option (List Char × List Char)
  | [] => none
  | [char] => if char = style.delimiter then some ([char], []) else none
  | char :: next :: rest =>
    -- An escape and a doubled delimiter take two characters at once; a lone delimiter closes.
    if (style.backslash ∧ char = '\\') ∨
        (style.doubling ∧ char = style.delimiter ∧ next = style.delimiter) then
      (style.close? rest).map fun (body, after) => (char :: next :: body, after)
    else if char = style.delimiter then some ([char], next :: rest)
    else (style.close? (next :: rest)).map fun (body, after) => (char :: body, after)

end QuoteStyle

/-- Splits a text after its leading digits and, if a digit follows the point, its fraction. -/
def splitNumber (chars : List Char) : List Char × List Char :=
  -- A point is part of the number only if a digit follows, so a member may be named after one.
  let whole := chars.takeWhile Char.isDigit
  match chars.dropWhile Char.isDigit with
  | '.' :: digit :: rest =>
    if digit.isDigit then
      (whole ++ '.' :: digit :: rest.takeWhile Char.isDigit, rest.dropWhile Char.isDigit)
    else (whole, '.' :: digit :: rest)
  | rest => (whole, rest)

/-- The category of a bare word. -/
def wordKind (word : List Char) : TokenKind :=
  -- A word that is no keyword in any mix of cases is a name.
  match Keyword.ofText? (String.ofList word) with
  | some keyword => .keyword keyword
  | none => .identifier

/-- What stands at the front of a text. -/
inductive Reading where
  /-- The text is empty. -/
  | finished
  /-- A token, the characters it takes and those after it. -/
  | lexeme (kind : TokenKind) (taken rest : List Char)
  /-- A delimiter whose partner is missing. -/
  | unclosed (delimiter : Char)
  /-- A character that starts no token. -/
  | unknown
  deriving DecidableEq, Repr

/-- Reads the longest token at the front of a text. -/
def readLexeme (chars : List Char) : Reading :=
  match chars with
  | [] => .finished
  | char :: rest =>
    -- A digit is also a word character, so numbers are tried before words.
    if char.isDigit then
      let (number, after) := splitNumber chars
      .lexeme .literal number after
    else if isWordChar char then
      let word := chars.takeWhile isWordChar
      .lexeme (wordKind word) word (chars.dropWhile isWordChar)
    else if isBlank char then
      .lexeme .space (chars.takeWhile isBlank) (chars.dropWhile isBlank)
    else
      match Mark.leading? chars with
      | some sign => .lexeme .mark sign.chars (chars.drop sign.chars.length)
      | none =>
        match QuoteStyle.ofDelimiter? char with
        | none => .unknown
        | some style =>
          match style.close? rest with
          | some (body, after) => .lexeme style.kind (char :: body) after
          | none => .unclosed char

end SelectSql
