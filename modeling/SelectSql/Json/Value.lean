/-! JSON values. -/

namespace SelectSql

/-- A JSON value; the members of an object are kept in the order in which they are written. -/
inductive Json where
  | null
  | bool (value : Bool)
  /-- The number `mantissa * 10 ^ -exponent`. -/
  | number (mantissa : Int) (exponent : Nat)
  | string (text : String)
  | array (items : List Json)
  | object (members : List (String × Json))
  deriving Inhabited

namespace Json

/-- The value of the first member with a given key, `null` if there is none. -/
def member (members : List (String × Json)) (key : String) : Json :=
  -- A missing member counts as `null`, so absent and empty parts read alike.
  (members.lookup key).getD null

/-- The members of a record with given keys; an array may give their values alone, in that order. -/
def parts (keys : List String) : Json → List (String × Json)
  -- An array with too few or too many values stands for no record and so has no parts.
  | object members => members
  | array items => if items.length = keys.length then keys.zip items else []
  | _ => []

/-- The part of a record under one of its keys, `null` if it is missing. -/
def part (record : Json) (keys : List String) (key : String) : Json :=
  -- Keys beyond those of the record are never asked for.
  member (record.parts keys) key

/-- The text of a string value. -/
def text? : Json → Option String
  -- Numbers and truth values are not turned into text.
  | string text => some text
  | _ => none

/-- The name that a value gives: a string, or the only key of an object that holds nothing. -/
def name? : Json → Option String
  -- A key with anything but `null` under it is more than a name.
  | string text => some text
  | object [(name, null)] => some name
  | _ => none

/-- The truth value of a Boolean. -/
def bool? : Json → Option Bool
  -- Neither numbers nor texts stand for truth values.
  | bool value => some value
  | _ => none

/-- What a value stands for if `null` stands for nothing. -/
def nullable? (read? : Json → Option α) : Json → Option (Option α)
  -- Only `null` itself is nothing; every other value has to be read.
  | null => some none
  | value => (read? value).map some

end Json

end SelectSql
