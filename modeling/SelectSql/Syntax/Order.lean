import SelectSql.Token.Keyword

/-! Modifiers of a sort key. -/

namespace SelectSql

/-- A direction, or a rule for where nulls go. -/
inductive SortOption where
  | asc | desc | nullsFirst | nullsLast
  deriving DecidableEq, Repr

namespace SortOption

/-- Every modifier. -/
def all : List SortOption :=
  -- Directions and places of nulls are modifiers alike.
  [asc, desc, nullsFirst, nullsLast]

/-- The keywords that spell the modifier. -/
def keywords : SortOption → List Keyword
  -- A place of nulls takes two words.
  | asc => [.asc]
  | desc => [.desc]
  | nullsFirst => [.nulls, .first]
  | nullsLast => [.nulls, .last]

/-- The printed spelling of the modifier. -/
def text (option : SortOption) : String :=
  -- Modifiers are printed in capitals however they were written.
  " ".intercalate (option.keywords.map Keyword.capitals)

/-- The name under which the modifier is stored. -/
def name : SortOption → String
  -- Names are those of the stored form, one word each.
  | asc => "Asc"
  | desc => "Desc"
  | nullsFirst => "NullsFirst"
  | nullsLast => "NullsLast"

/-- The modifier stored under a name; the case of its letters matters. -/
def ofName? (name : String) : Option SortOption :=
  -- No two modifiers share a name, so at most one fits.
  all.find? fun option => option.name == name

/-- A stored name leads back to its modifier. -/
theorem ofName?_name (option : SortOption) : ofName? option.name = some option := by
  -- The names are distinct, so the search stops at the modifier itself.
  cases option <;> decide

end SortOption

end SelectSql
