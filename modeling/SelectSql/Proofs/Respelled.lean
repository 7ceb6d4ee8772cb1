import SelectSql.Proofs.Agreement

/-!
Reading depends on the tokens of a text alone. Texts whose tokens agree in category, and in what
they say unless they are white space, are read as one tree or refused for one reason at the same
token.
-/

namespace SelectSql

/-- Tokens of one category that say the same, white space apart. -/
structure Token.Echoes (token other : Token) : Prop where
  /-- Both are of one category. -/
  kind : token.kind = other.kind
  /-- Both have one text, unless that is white space. -/
  text : token.isSpace = false → token.text = other.text

/-- Whether tokens echo each other can be told by looking at them. -/
instance (token other : Token) : Decidable (token.Echoes other) :=
  decidable_of_iff (token.kind = other.kind ∧ (token.isSpace = false → token.text = other.text))
    ⟨fun same => ⟨same.1, same.2⟩, fun echoes => ⟨echoes.kind, echoes.text⟩⟩

/-- Results for two texts with given tokens: one tree, or refusals for one reason and at one index
among the tokens. -/
inductive SameResult (tokens others : List Token) :
    Except ParseError Node → Except ParseError Node → Prop where
  | read (tree : Node) : SameResult tokens others (.ok tree) (.ok tree)
  | unexpected {found twin : Token} (expected : Option Expectation) (index : Nat)
      (first : tokens[index]? = some found) (second : others[index]? = some twin) :
      SameResult tokens others (.error (.unexpected found expected))
        (.error (.unexpected twin expected))
  | trailing {found twin : Token} (index : Nat)
      (first : tokens[index]? = some found) (second : others[index]? = some twin) :
      SameResult tokens others (.error (.trailing found)) (.error (.trailing twin))

variable {token other : Token} {tokens others front back : List Token}

/-- Tokens that echo each other are alike. -/
theorem Token.Echoes.like (echoes : token.Echoes other) : token.Like other := by
  refine ⟨echoes.kind, ?_⟩
  -- White space has one lexeme, whatever its text.
  have same := echoes.text
  unfold isSpace at same
  unfold lexeme
  rw [← echoes.kind]
  cases kind : token.kind with
  | space => rfl
  -- For every other category the texts are the same, so the lexemes are.
  | _ => simp_all

/-- A token and its partner stand at one index. -/
theorem exists_index_of_zip (partners : (token, other) ∈ tokens.zip others) :
    ∃ index : Nat, tokens[index]? = some token ∧ others[index]? = some other := by
  obtain ⟨index, found⟩ := List.mem_iff_getElem?.1 partners
  exact ⟨index, List.getElem?_zip_eq_some.1 found⟩

/-- The partners in two rows that are one longer are those in front, and the last two. -/
theorem mem_zip_concat {last final : Token} (same : front.length = back.length) :
    (token, other) ∈ (front ++ [last]).zip (back ++ [final]) ↔
      (token, other) ∈ front.zip back ∨ token = last ∧ other = final := by
  rw [List.zip_append same]
  simp

/-- The tokens of two texts in pairs, with the end of input after both. -/
def Pairing.ofEchoes (place stop : Nat)
    (echoes : ∀ {token other}, (token, other) ∈ front.zip back → token.Echoes other) : Pairing where
  tokens := front.zip back
  ending := .ok place
  closing := .ok stop
  like _ member := (echoes member).like
  together := rfl

section Echoing

variable {place stop : Nat}
  {echoes : ∀ {token other}, (token, other) ∈ front.zip back → token.Echoes other}

/-- The first row is that of the first text. -/
theorem Pairing.first_ofEchoes (same : front.length = back.length) :
    (ofEchoes place stop echoes).first = ⟨front, .ok place⟩ := by
  rw [first, Tape.mk.injEq]
  exact ⟨List.map_fst_zip (Nat.le_of_eq same), rfl⟩

/-- The second row is that of the second text. -/
theorem Pairing.second_ofEchoes (same : front.length = back.length) :
    (ofEchoes place stop echoes).second = ⟨back, .ok stop⟩ := by
  rw [second, Tape.mk.injEq]
  exact ⟨List.map_snd_zip (Nat.le_of_eq same.symm), rfl⟩

/-- Tokens that are given together stand at one index, with the ends of input as the last tokens. -/
theorem Pairing.exists_index (same : front.length = back.length)
    (given : (ofEchoes place stop echoes).Gives token other) :
    ∃ index : Nat, (front ++ [.eof place])[index]? = some token ∧
      (back ++ [.eof stop])[index]? = some other := by
  -- The ends of input are partners in the rows that hold them as last tokens.
  apply exists_index_of_zip
  rw [mem_zip_concat same]
  rcases given with member | ⟨_, _, ending, closing, rfl, rfl⟩
  · exact .inl member
  · obtain rfl := Except.ok.inj ending
    obtain rfl := Except.ok.inj closing
    exact .inr ⟨rfl, rfl⟩

end Echoing

/-- Texts whose tokens echo each other are read as one tree, or refused for one reason at tokens
that stand at one index. -/
theorem parse_sameResult (entry : Entry) {text twin : String} {tokens others : List Token}
    (split : tokenize text = .ok tokens) (again : tokenize twin = .ok others)
    (echo : List.Forall₂ Token.Echoes tokens others) :
    SameResult tokens others (entry.parse text) (entry.parse twin) := by
  -- Both texts are held by tapes, made of their tokens without the ends of input.
  obtain ⟨front, rfl, holds⟩ := exists_holds_of_tokenize split
  obtain ⟨back, rfl, follows⟩ := exists_holds_of_tokenize again
  obtain ⟨lengths, echoes⟩ := List.forall₂_iff_zip.1 echo
  have same : front.length = back.length := by simpa using lengths
  -- The two texts are read in step, token by token.
  let pairing : Pairing := .ofEchoes text.utf8ByteSize twin.utf8ByteSize
    fun member => echoes ((mem_zip_concat same).2 (.inl member))
  have streams := pairing.streams
  rw [Pairing.first_ofEchoes same, Pairing.second_ofEchoes same] at streams
  rw [(entry.parse_eq_read holds).1, (entry.parse_eq_read follows).1]
  rcases Twins.read_results entry streams with
    ⟨tree, read, again⟩ | ⟨_, error, fault, read, again, refusals⟩ | ⟨_, excused, _⟩
  · rw [read, again]
    exact .read tree
  · rw [read, again]
    cases error <;> cases fault <;> first | exact refusals.elim | skip
    · -- No fault comes after the tokens of a text that splits.
      cases refusals.1
    · -- The refused tokens were given together, so they stand at one index.
      obtain ⟨given, rfl⟩ := refusals
      obtain ⟨index, one, other⟩ := Pairing.exists_index same given
      exact .unexpected _ index one other
    · obtain ⟨index, one, other⟩ := Pairing.exists_index same refusals
      exact .trailing index one other
  · exact excused.elim

/-- A `NOT` in capitals, after other white space, is read as one in small letters is. -/
theorem parse_sameResult_not :
    tokenize "x not" = .ok [⟨.identifier, "x", ⟨0, 1⟩⟩, ⟨.space, " ", ⟨1, 2⟩⟩,
        ⟨.keyword .not, "not", ⟨2, 5⟩⟩, .eof 5] ∧
      tokenize "x\t\nNOT" = .ok [⟨.identifier, "x", ⟨0, 1⟩⟩, ⟨.space, "\t\n", ⟨1, 3⟩⟩,
        ⟨.keyword .not, "not", ⟨3, 6⟩⟩, .eof 6] ∧
      SameResult [⟨.identifier, "x", ⟨0, 1⟩⟩, ⟨.space, " ", ⟨1, 2⟩⟩,
        ⟨.keyword .not, "not", ⟨2, 5⟩⟩, .eof 5] [⟨.identifier, "x", ⟨0, 1⟩⟩,
        ⟨.space, "\t\n", ⟨1, 3⟩⟩, ⟨.keyword .not, "not", ⟨3, 6⟩⟩, .eof 6]
        (Entry.expression.parse "x not") (Entry.expression.parse "x\t\nNOT") := by
  -- The word in capitals is lowered before it is looked up, which is not left to evaluation.
  have capitals : wordKind ['N', 'O', 'T'] = .keyword .not := by
    rw [wordKind, Keyword.ofText?_eq, String.toList_ofList]
    rfl
  have word : readLexeme ['N', 'O', 'T'] =
      .lexeme (.keyword .not) ['N', 'O', 'T'] [] := by
    rw [← capitals]
    rfl
  have split : tokenize "x not" = .ok [⟨.identifier, "x", ⟨0, 1⟩⟩, ⟨.space, " ", ⟨1, 2⟩⟩,
      ⟨.keyword .not, "not", ⟨2, 5⟩⟩, .eof 5] := by decide +kernel
  have again : tokenize "x\t\nNOT" = .ok [⟨.identifier, "x", ⟨0, 1⟩⟩,
      ⟨.space, "\t\n", ⟨1, 3⟩⟩, ⟨.keyword .not, "not", ⟨3, 6⟩⟩, .eof 6] := by
    have text : "x\t\nNOT".toList = ['x', '\t', '\n', 'N', 'O', 'T'] := String.toList_ofList
    have name : readLexeme ['x', '\t', '\n', 'N', 'O', 'T'] =
        .lexeme .identifier ['x'] ['\t', '\n', 'N', 'O', 'T'] := by decide +kernel
    have blanks : readLexeme ['\t', '\n', 'N', 'O', 'T'] =
        .lexeme .space ['\t', '\n'] ['N', 'O', 'T'] := by decide +kernel
    rw [tokenize_eq_ok, text]
    exact ⟨_, rfl, .token name (.token blanks (.token word .done))⟩
  exact ⟨split, again, parse_sameResult .expression split again (by decide +kernel)⟩

end SelectSql
