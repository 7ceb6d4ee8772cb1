import SelectSql.Text.Letters
import SelectSql.Text.Quoted

/-! Choices that the printed form of a statement leaves open. -/

namespace SelectSql

/-- How the projections of a statement are laid out. -/
inductive ProjectionLayout where
  /-- All projections stand on the line of `SELECT`. -/
  | inline
  /-- Every projection after the first starts a line, aligned under the first. -/
  | wrap
  deriving DecidableEq, Repr

namespace ProjectionLayout

/-- Every layout. -/
def all : List ProjectionLayout :=
  -- A new layout need only be listed here to be found by name.
  [inline, wrap]

/-- The configuration name of the layout. -/
def text : ProjectionLayout → String
  -- The names are in lower case, as they are stored.
  | inline => "inline"
  | wrap => "wrap"

/-- The layout stored under a name; the case of its letters matters. -/
def ofName? (name : String) : Option ProjectionLayout :=
  -- The stored form is exact, so a name in capitals is none.
  all.find? fun layout => layout.text == name

/-- A stored name leads back to its layout. -/
theorem ofName?_text (layout : ProjectionLayout) : ofName? layout.text = some layout := by
  -- The two names differ.
  cases layout <;> decide

end ProjectionLayout

/-- A layout was asked for by a name that none has. -/
structure UnknownLayout where
  /-- The name as it was given. -/
  name : String
  deriving DecidableEq, Repr

/-- The message that reports an unknown layout. -/
def UnknownLayout.message (unknown : UnknownLayout) : String :=
  -- The name is quoted as given, and the known ones follow.
  "unknown projection layout: " ++ quoteText unknown.name ++ " (expected \"inline\" or \"wrap\")"

/-- The layout a user names, in any mix of cases; a name with a space around it is unknown. -/
def ProjectionLayout.ofText (text : String) : Except UnknownLayout ProjectionLayout :=
  -- The text is compared as a whole: nothing is trimmed off it first.
  match all.find? fun layout => sameLetters layout.text text with
  | some layout => .ok layout
  | none => .error ⟨text⟩

/-- The options of the printed form. -/
structure FormatOptions where
  /-- The layout of projections. -/
  projections : ProjectionLayout := .inline
  deriving DecidableEq, Repr

end SelectSql
