import SelectSql.Token.Terminal
import SelectSql.Text.Quoted

/-! Tokens: what a piece of a statement is, how it reads and where it stands. -/

namespace SelectSql

/-- A range of byte offsets into the UTF-8 form of a text. -/
structure Span where
  /-- The offset of the first byte. -/
  start : Nat
  /-- The offset just after the last byte. -/
  stop : Nat
  deriving DecidableEq, Repr

/-- The number of bytes covered. -/
def Span.length (span : Span) : Nat :=
  -- The end is exclusive, so the difference counts the bytes.
  span.stop - span.start

/-- Whether no byte is covered. -/
def Span.isEmpty (span : Span) : Bool :=
  -- Of the tokens in a text, only the end of input covers nothing.
  span.start == span.stop

/-- The category of a token. -/
inductive TokenKind where
  /-- A reserved word. -/
  | keyword (word : Keyword)
  /-- A bare or delimited name. -/
  | identifier
  /-- A number or a quoted string. -/
  | literal
  /-- An operator or structural punctuation. -/
  | mark
  /-- A run of white space. -/
  | space
  /-- The end of input. -/
  | eof
  deriving DecidableEq, Repr

/-- The description of a category in messages. -/
def TokenKind.describe : TokenKind → String
  -- A keyword is described by its category; its own text is reported beside it.
  | keyword _ => "keyword"
  | identifier => "identifier"
  | literal => "literal"
  | mark => "punctuation"
  | space => "whitespace"
  | eof => "end of input"

/-- A token with its text and its place. -/
structure Token where
  /-- The category. -/
  kind : TokenKind
  /-- The text, which for a scanned keyword is its lower-case spelling. -/
  text : String
  /-- The bytes it was read from. -/
  span : Span
  deriving DecidableEq, Repr

namespace Token

/-- The end of input at a byte offset. -/
def eof (position : Nat) : Token :=
  -- Nothing is read, so text and span are empty.
  ⟨.eof, "", ⟨position, position⟩⟩

/-- The byte offset at which the token starts. -/
def position (token : Token) : Nat :=
  -- Faults are reported at the first byte.
  token.span.start

/-- Whether the token is the end of input. -/
def isEof (token : Token) : Bool :=
  -- The category alone decides, so a token made by hand counts too.
  token.kind == .eof

/-- Whether the token is white space. -/
def isSpace (token : Token) : Bool :=
  -- A run of white space is one token, whatever its length.
  token.kind == .space

/-- Whether the token is a given keyword, whatever its text. -/
def isKeyword (token : Token) (word : Keyword) : Bool :=
  -- The category carries the keyword, so the text is not consulted.
  token.kind == .keyword word

/-- Whether the token is punctuation with a given text. -/
def isPunctuation (token : Token) (text : String) : Bool :=
  -- Marks share one category and are told apart by their text.
  token.kind == .mark && token.text == text

/-- Whether the token is a given mark. -/
def isMark (token : Token) (sign : Mark) : Bool :=
  -- A mark is recognised by its only spelling.
  token.isPunctuation sign.text

/-- The fixed symbol that the token is, if it is one. -/
def terminal? (token : Token) : Option Terminal :=
  -- Keywords are known by category, marks by text; nothing else has a fixed spelling.
  match token.kind with
  | .keyword word => some (.keyword word)
  | .mark => (Mark.ofText? token.text).map .mark
  | _ => none

/-- The form of the token in messages. -/
def display (token : Token) : String :=
  -- The end of input has no text to quote, so only its place is shown.
  match token.kind with
  | .eof => "end of input at " ++ toString token.position
  | kind => kind.describe ++ " " ++ quoteText token.text ++ " at " ++ toString token.position

end Token

end SelectSql
