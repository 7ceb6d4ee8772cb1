import SelectSql.Text.Letters

/-! Reserved words of the query language. -/

namespace SelectSql

/-- A word that the grammar reserves. -/
inductive Keyword where
  | select | from_ | where_ | group | by_ | order | having | limit | offset | distinct
  | and | or | is | not | between | in_ | like | ilike | null
  | as
  | asc | desc | nulls | first | last
  | case | when | then_ | else_ | end_
  | join | inner | left | right | full | outer | cross | on
  deriving DecidableEq, Repr

namespace Keyword

/-- Every keyword, grouped by the clause it belongs to. -/
def all : List Keyword :=
  -- A word is looked up here, and each has one spelling, so the order cannot matter to that.
  [select, from_, where_, group, by_, order, having, limit, offset, distinct,
    and, or, is, not, between, in_, like, ilike, null,
    as,
    asc, desc, nulls, first, last,
    case, when, then_, else_, end_,
    join, inner, left, right, full, outer, cross, on]

/-- The lower-case spelling. -/
def text : Keyword → String
  -- Spellings are lower-case ASCII words without digits.
  | select => "select"
  | from_ => "from"
  | where_ => "where"
  | group => "group"
  | by_ => "by"
  | order => "order"
  | having => "having"
  | limit => "limit"
  | offset => "offset"
  | distinct => "distinct"
  | and => "and"
  | or => "or"
  | is => "is"
  | not => "not"
  | between => "between"
  | in_ => "in"
  | like => "like"
  | ilike => "ilike"
  | null => "null"
  | as => "as"
  | asc => "asc"
  | desc => "desc"
  | nulls => "nulls"
  | first => "first"
  | last => "last"
  | case => "case"
  | when => "when"
  | then_ => "then"
  | else_ => "else"
  | end_ => "end"
  | join => "join"
  | inner => "inner"
  | left => "left"
  | right => "right"
  | full => "full"
  | outer => "outer"
  | cross => "cross"
  | on => "on"

/-- The capitals in which statements are printed and expectations are reported. -/
def capitals (keyword : Keyword) : String :=
  -- Spellings are ASCII, so raising each letter gives the capitals.
  keyword.text.toUpper

/-- The keyword a word spells, in any mix of cases. -/
def ofText? (word : String) : Option Keyword :=
  -- Spellings differ in more than case, so at most one keyword fits.
  all.find? fun keyword => sameLetters keyword.text word

/-- The list of keywords omits none. -/
theorem mem_all (keyword : Keyword) : keyword ∈ all := by
  -- The list names every constructor.
  cases keyword <;> decide

end Keyword

end SelectSql
