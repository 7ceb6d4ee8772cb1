import SelectSql.Text.CodeRange

/-! White space: the characters that separate tokens. -/

namespace SelectSql

/-- The code points with the White_Space property. -/
def blankRanges : List CodeRange :=
  -- The first range is the ASCII controls from tab to carriage return.
  [⟨0x9, 0xD⟩, ⟨0x20, 0x20⟩, ⟨0x85, 0x85⟩, ⟨0xA0, 0xA0⟩, ⟨0x1680, 0x1680⟩, ⟨0x2000, 0x200A⟩,
    ⟨0x2028, 0x2029⟩, ⟨0x202F, 0x202F⟩, ⟨0x205F, 0x205F⟩, ⟨0x3000, 0x3000⟩]

/-- Whether a character is white space, which zero-width marks and U+001C to U+001F are not. -/
def isBlank (char : Char) : Bool :=
  -- White space is settled by the table alone, whatever the alphabet.
  inRanges blankRanges char

end SelectSql
