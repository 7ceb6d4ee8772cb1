import SelectSql.Proofs.Completing.Filler

/-!
Completed tokens as text. Fillers are written with spaces between them after what has been read, and
the whole splits into the tokens that were meant.
-/

namespace SelectSql

/-- The characters that spell a filler. -/
def Filler.chars : Filler → List Char
  | string => ['\'', '\'']
  | name => ['a']
  | symbol terminal => terminal.text.toList

/-- Fillers as characters, each with a space after it. -/
def spreadChars (fillers : List Filler) : List Char :=
  fillers.flatMap fun filler => filler.chars ++ [' ']

/-- A space as characters, if it is asked for. -/
def paddingChars (spaced : Bool) : List Char :=
  if spaced then [' '] else []

namespace Filler

/-- A filler is spelled by characters of its category, which say what it says. -/
theorem admits (filler : Filler) :
    ∃ kind : TokenKind, kind.Admits filler.chars ∧ kind.lexeme filler.chars = filler.lexeme := by
  cases filler with
  | string => exact ⟨.literal, Or.inr ⟨[], .nil, rfl⟩, rfl⟩
  | name =>
    have named : IsName "a" := by decide +kernel
    exact ⟨.identifier, named, rfl⟩
  | symbol terminal =>
    cases terminal with
    -- Keywords are written in capitals, which spell them as well as anything does.
    | keyword word => exact ⟨.keyword word, word.admits_capitals, rfl⟩
    | mark sign =>
      have same : chars (.symbol (.mark sign)) = sign.chars := String.toList_ofList
      have found : Mark.ofText? (String.ofList sign.chars) = some sign :=
        Mark.ofText?_eq_some.2 rfl
      refine ⟨.mark, ⟨sign, same⟩, ?_⟩
      rw [same, TokenKind.lexeme, Token.lexeme]
      simp [TokenKind.textOf, found, lexeme]

/-- A filler begins with a character that is neither a digit nor white space. -/
theorem head_chars (filler : Filler) : ∃ first rest, filler.chars = first :: rest ∧
    first.isDigit = false ∧ isBlank first = false := by
  cases filler with
  | string => exact ⟨'\'', ['\''], rfl, by decide, by decide⟩
  | name => exact ⟨'a', [], rfl, by decide, by decide⟩
  | symbol terminal =>
    cases terminal with
    | keyword word =>
      obtain ⟨first, rest, shape, starts, noDigit, _⟩ := word.admits_capitals.1
      refine ⟨first, rest, shape, noDigit, ?_⟩
      -- A word begins with a word character, and none of these is white space.
      rw [← Bool.not_eq_true]
      intro blank
      rw [(not_isWordChar_of_isBlank blank).1] at starts
      cases starts
    | mark sign =>
      rw [show chars (.symbol (.mark sign)) = sign.chars from String.toList_ofList]
      cases sign <;> exact ⟨_, _, rfl, by decide, by decide⟩

/-- No filler is white space. -/
theorem lexeme_ne_space (filler : Filler) : filler.lexeme ≠ .space := by
  cases filler <;> nofun

end Filler

section Spreading

variable {fillers : List Filler} {spaced : Bool} {chars : List Char} {tokens : List Token}

/-- What fillers begin with is neither a digit nor white space. -/
theorem head?_spreadChars (fillers : List Filler) :
    ∀ char ∈ (spreadChars fillers).head?, char.isDigit = false ∧ isBlank char = false := by
  -- There is a first character only if there is a first filler.
  cases fillers with
  | nil => nofun
  | cons filler fillers =>
    obtain ⟨first, rest, shape, noDigit, noBlank⟩ := filler.head_chars
    intro char head
    rw [spreadChars, List.flatMap_cons, shape] at head
    obtain rfl := Option.some.inj head
    exact ⟨noDigit, noBlank⟩

/-- A space seals whatever is in front of it. -/
theorem seals_space : Seals (' ' :: chars) := by
  intro char head
  obtain rfl := Option.some.inj head
  exact .inl (by decide)

/-- Fillers are read off their characters, with white space after each. -/
theorem scans_spreadChars (fillers : List Filler) :
    Scans (spreadChars fillers) ((spread fillers).map Token.lexeme) [] := by
  -- The induction is on the fillers, each of which adds its own lexeme and a space.
  induction fillers with
  | nil => exact .done
  | cons filler fillers ih =>
    obtain ⟨kind, admitted, said⟩ := filler.admits
    -- The space after a filler ends it, and the next filler ends the space.
    have ends : kind.EndsBefore filler.chars (' ' :: spreadChars fillers) := by
      refine TokenKind.endsBefore_nil.append seals_space fun space => ?_
      subst space
      rw [(TokenKind.lexeme_eq_space admitted).2 rfl] at said
      exact absurd said.symm filler.lexeme_ne_space
    have blank : TokenKind.space.Admits [' '] :=
      ⟨List.cons_ne_nil _ _, fun char member => by rw [List.mem_singleton.1 member]; decide⟩
    have stops : TokenKind.space.EndsBefore [' '] (spreadChars fillers) :=
      fun char head => (head?_spreadChars fillers char head).2
    have following := Scans.cons admitted ends (Scans.cons blank stops ih)
    rw [said, ← filler.token_lexeme] at following
    rw [spreadChars, List.flatMap_cons, List.append_assoc]
    exact following

/-- Fillers with white space in front are read off their characters. -/
theorem scans_padded (spaced : Bool) (fillers : List Filler) :
    Scans (paddingChars spaced ++ spreadChars fillers)
      ((padding spaced ++ spread fillers).map Token.lexeme) [] := by
  -- White space in front is one more lexeme, which the first filler ends.
  cases spaced with
  | false => exact scans_spreadChars fillers
  | true =>
    have blank : TokenKind.space.Admits [' '] :=
      ⟨List.cons_ne_nil _ _, fun char member => by rw [List.mem_singleton.1 member]; decide⟩
    exact Scans.cons blank (fun char head => (head?_spreadChars fillers char head).2)
      (scans_spreadChars fillers)

/-- Completed tokens are the tokens with fillers after them, set apart as the last token asks. -/
theorem completed_eq (spaced : Bool) (fillers : List Filler) (tokens : List Token) :
    completed spaced fillers tokens = tokens ++
      (padding ((tokens.getLast?.map Token.apart).getD spaced) ++ spread fillers) := by
  -- Each token decides whether what comes after it is set apart, and the last one has the final
  -- word.
  induction tokens generalizing spaced with
  | nil => rfl
  | cons token tokens ih =>
    rw [completed, ih, List.getLast?_cons, List.cons_append]
    cases tokens.getLast? <;> rfl

/-- A token read from some characters ends before fillers, with white space in front if it asks for
that. -/
theorem endsBefore_padded {kind : TokenKind} {last : Token} (admitted : kind.Admits chars)
    (said : last.lexeme = kind.lexeme chars) (fillers : List Filler) :
    kind.EndsBefore chars (paddingChars last.apart ++ spreadChars fillers) := by
  -- A token that is not set apart is white space or a point.
  cases apart : last.apart with
  | true =>
    -- White space is not set apart, and anything else ends before a space.
    refine TokenKind.endsBefore_nil.append seals_space fun space => ?_
    rw [(TokenKind.lexeme_eq_space admitted).2 space] at said
    rw [Token.apart, last.isSpace_eq, said] at apart
    cases apart
  | false =>
    rw [Token.apart, Bool.not_eq_false', Bool.or_eq_true, last.isSpace_eq, last.isMark_eq,
      beq_iff_eq, beq_iff_eq, said] at apart
    rcases apart with space | dot
    · obtain rfl := (TokenKind.lexeme_eq_space admitted).1 space
      exact fun char head => (head?_spreadChars fillers char head).2
    · -- A point is a mark that no other goes on from.
      obtain rfl : kind = .mark := Token.kind_of_mark dot
      obtain ⟨sign, rfl⟩ := admitted
      have found : Mark.ofText? (String.ofList sign.chars) = some sign :=
        Mark.ofText?_eq_some.2 rfl
      obtain rfl : sign = .dot := by
        simpa [TokenKind.lexeme, Token.lexeme, TokenKind.textOf, found] using dot
      constructor
      · intro less
        cases less
      · intro greater
        cases greater

/-- What has been read is completed by characters that make the whole split as it was meant to. -/
theorem Scans.exists_completed (scans : Scans chars (tokens.map Token.lexeme) [])
    (fillers : List Filler) : ∃ more,
      Scans (chars ++ more) ((completed false fillers tokens).map Token.lexeme) [] := by
  -- Whether white space comes first is decided by the last token that has been read.
  generalize apart : (tokens.getLast?.map Token.apart).getD false = spaced
  refine ⟨paddingChars spaced ++ spreadChars fillers, ?_⟩
  rw [completed_eq, List.map_append, apart]
  -- The characters that are there stay as they split, since the last token ends where the new ones
  -- begin.
  refine scans.append_of_ends (scans_padded spaced fillers) ?_ ?_
  · cases spaced with
    | true =>
      intro char head
      obtain rfl := Option.some.inj head
      decide
    | false => exact fun char head => (head?_spreadChars fillers char head).1
  · intro kind taken admitted ends
    rw [List.getLast?_map, Option.map_eq_some_iff] at ends
    obtain ⟨last, found, said⟩ := ends
    rw [found] at apart
    obtain rfl : last.apart = spaced := apart
    exact endsBefore_padded admitted said fillers

end Spreading

end SelectSql
