import SelectSql.Text.Extender
import SelectSql.Text.Printable

/-! Quoting text for messages, with escapes for whatever would not show. -/

namespace SelectSql

/-- The escape that names a character by its code point in lower-case hexadecimal. -/
def codeEscape (char : Char) : List Char :=
  -- The braces close the number, so digits after it cannot be taken for part of it.
  ['\\', 'u', '\x7b'] ++ Nat.toDigits 16 char.toNat ++ ['\x7d']

/-- The written form of a character between two quotes of the given kind. -/
def escapeWithin (quote char : Char) : List Char :=
  -- The short escapes come first, since controls among them would otherwise be named by code point.
  if char = '\x00' then ['\\', '0']
  else if char = '\t' then ['\\', 't']
  else if char = '\r' then ['\\', 'r']
  else if char = '\n' then ['\\', 'n']
  else if char = '\\' ∨ char = quote then ['\\', char]
  else if isExtender char || !isPrintable char then codeEscape char
  else [char]

/-- A text between double quotes; single quotes inside stay bare. -/
def quoteText (text : String) : String :=
  -- Every character is escaped on its own, wherever it stands.
  String.ofList ('"' :: text.toList.flatMap (escapeWithin '"') ++ ['"'])

/-- A character between single quotes; a double quote inside stays bare. -/
def quoteChar (char : Char) : String :=
  -- The same escapes serve, with the single quote as the one that would close.
  String.ofList ('\'' :: escapeWithin '\'' char ++ ['\''])

end SelectSql
