import SelectSql.Token.Keyword

/-! Kinds of join. -/

namespace SelectSql

/-- How two sources are joined, with the optional words kept as they were written. -/
inductive JoinKind where
  | plain | inner | cross | left | leftOuter | right | rightOuter | fullOuter
  deriving DecidableEq, Repr

namespace JoinKind

/-- Every kind of join. -/
def all : List JoinKind :=
  -- Short and full spellings are kinds of their own.
  [plain, inner, cross, left, leftOuter, right, rightOuter, fullOuter]

/-- The keywords written before `JOIN`. -/
def keywords : JoinKind → List Keyword
  -- A full join is never written without its `OUTER`.
  | plain => []
  | inner => [.inner]
  | cross => [.cross]
  | left => [.left]
  | leftOuter => [.left, .outer]
  | right => [.right]
  | rightOuter => [.right, .outer]
  | fullOuter => [.full, .outer]

/-- The lower-case words written before `JOIN`, empty for a plain join. -/
def text (kind : JoinKind) : String :=
  -- Two words are separated by a single space.
  " ".intercalate (kind.keywords.map Keyword.text)

/-- The name under which the kind is stored. -/
def name : JoinKind → String
  -- Names are those of the stored form, one word each.
  | plain => "Plain"
  | inner => "Inner"
  | cross => "Cross"
  | left => "Left"
  | leftOuter => "LeftOuter"
  | right => "Right"
  | rightOuter => "RightOuter"
  | fullOuter => "FullOuter"

/-- The kind stored under a name; the case of its letters matters. -/
def ofName? (name : String) : Option JoinKind :=
  -- No two kinds share a name, so at most one fits.
  all.find? fun kind => kind.name == name

/-- The kind with every word that may be left out written in full. -/
def canonical : JoinKind → JoinKind
  -- A bare `JOIN` is an inner one, and an outer side may leave `OUTER` out.
  | plain => inner
  | left => leftOuter
  | right => rightOuter
  | kind => kind

/-- Whether rows without a partner are kept. -/
def isOuter : JoinKind → Bool
  -- A one-sided join keeps rows whether or not `OUTER` is written.
  | left | leftOuter | right | rightOuter | fullOuter => true
  | _ => false

/-- Whether two kinds describe the same join, whatever optional words they write. -/
def sameMeaning (first second : JoinKind) : Bool :=
  -- Writing out the optional words on both sides leaves nothing else to differ.
  first.canonical == second.canonical

/-- A stored name leads back to its kind. -/
theorem ofName?_name (kind : JoinKind) : ofName? kind.name = some kind := by
  -- The names are distinct, so the search stops at the kind itself.
  cases kind <;> decide

end JoinKind

end SelectSql
