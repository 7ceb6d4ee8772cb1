import SelectSql.Proofs.Twins.Tape

/-!
Two rows of tokens in pairs. What is read from the first row is read from the second, and a refusal
on the one is a refusal on the other at the partner of its token.
-/

namespace SelectSql

/-- Two rows of like tokens, with what comes after each. -/
structure Pairing where
  /-- The tokens of the first row, each with its partner in the second. -/
  tokens : List (Token × Token)
  /-- What comes after the first row. -/
  ending : Except LexError Nat
  /-- What comes after the second row. -/
  closing : Except LexError Nat
  /-- Partners are alike. -/
  like : ∀ pair ∈ tokens, pair.1.Like pair.2
  /-- The end of input comes after both rows, or a fault after both. -/
  together : ending.isOk = closing.isOk

namespace Pairing

/-- The first row. -/
def first (pairing : Pairing) : Tape :=
  ⟨pairing.tokens.map Prod.fst, pairing.ending⟩

/-- The second row. -/
def second (pairing : Pairing) : Tape :=
  ⟨pairing.tokens.map Prod.snd, pairing.closing⟩

/-- Every token is its own partner. -/
def itself (tape : Tape) : Pairing where
  tokens := tape.tokens.map fun token => (token, token)
  ending := tape.ending
  closing := tape.ending
  like pair member := by
    -- A pair of the row is a token beside itself.
    obtain ⟨token, _, rfl⟩ := List.mem_map.1 member
    exact ⟨rfl, rfl⟩
  together := rfl

/-- Tokens that are given together: partners, or the end of input after both rows. -/
def Gives (pairing : Pairing) (token other : Token) : Prop :=
  -- A reader of both rows in step is given nothing else.
  (token, other) ∈ pairing.tokens ∨ ∃ place stop, pairing.ending = .ok place ∧
    pairing.closing = .ok stop ∧ token = .eof place ∧ other = .eof stop

variable {pairing : Pairing} {tape : Tape} {token other : Token}

/-- Tokens that are given together are alike. -/
theorem Gives.like (given : pairing.Gives token other) : token.Like other := by
  rcases given with member | ⟨_, _, _, _, rfl, rfl⟩
  · exact pairing.like _ member
  · exact ⟨rfl, rfl⟩

/-- The first row of a tape beside itself is the tape. -/
@[simp] theorem first_itself : (itself tape).first = tape := by
  simp [itself, first, Function.comp_def]

/-- The second row of a tape beside itself is the tape. -/
@[simp] theorem second_itself : (itself tape).second = tape := by
  simp [itself, second, Function.comp_def]

/-- A tape beside itself gives what the tape gives. -/
theorem gives_of_itself (given : (itself tape).Gives token other) : tape.Gives token := by
  rcases given with member | ⟨place, _, ending, _, rfl, _⟩
  · -- The pair was made of a token of the tape, which is both of its halves.
    obtain ⟨held, among, same⟩ := List.mem_map.1 member
    obtain rfl : held = token := congrArg Prod.fst same
    exact .inl among
  · exact .inr ⟨place, ending, rfl⟩

end Pairing

/-- Two rows that are read pair by pair. -/
def Twins.paired (pairing : Pairing) : Twins Nat Tape Tape where
  streams _ tape other := ∃ rest : List (Token × Token),
    (∀ pair ∈ rest, pairing.Gives pair.1 pair.2) ∧
    tape = ⟨rest.map Prod.fst, pairing.ending⟩ ∧ other = ⟨rest.map Prod.snd, pairing.closing⟩
  left _ _ _ := True
  tokens _ := pairing.Gives
  faults _ error fault := pairing.ending = .error error ∧ pairing.closing = .error fault
  ended _ := ∃ token other, pairing.Gives token other ∧ token.isEof = true
  excused _ := False
  like given := given.like
  leave _ := trivial
  kept _ seen := seen
  next := by
    rintro stage _ _ ⟨rest, given, rfl, rfl⟩
    cases rest with
    -- While pairs are left, one is taken from both rows, and putting it back restores them.
    | cons pair rest =>
      obtain ⟨one, others⟩ := List.forall_mem_cons.1 given
      refine ⟨one, ⟨pair :: rest, given, rfl, rfl⟩, stage, le_refl stage, ?_, ?_⟩
      · exact ⟨rest, others, rfl, rfl⟩
      · exact fun ending => ⟨_, _, one, ending⟩
    | nil =>
      -- After the last pair both rows have come to their ends.
      have together := pairing.together
      cases ending : pairing.ending with
      | error error =>
        cases closing : pairing.closing with
        | error fault => exact .inl ⟨stage, le_refl stage, trivial, rfl, rfl⟩
        -- One row cannot end with a fault where the other comes to the end of input.
        | ok stop => rw [ending, closing] at together; cases together
      | ok place =>
        cases closing : pairing.closing with
        | error fault => rw [ending, closing] at together; cases together
        | ok stop =>
          -- The ends of input are given as partners too, wherever the two texts end.
          have last : pairing.Gives (.eof place) (.eof stop) :=
            .inr ⟨place, stop, ending, closing, rfl, rfl⟩
          -- Put back, they are the only pair that is left.
          have back : ∀ pair ∈ [(Token.eof place, Token.eof stop)],
              pairing.Gives pair.1 pair.2 := fun pair member => by
            obtain rfl := List.mem_singleton.1 member
            exact last
          refine ⟨last, ⟨[(.eof place, .eof stop)], back, rfl, rfl⟩, stage, le_refl stage, ?_, ?_⟩
          · exact ⟨[], List.forall_mem_nil _, rfl, rfl⟩
          · exact fun ends => ⟨_, _, last, ends⟩

/-- Two rows are in step from the start. -/
theorem Pairing.streams (pairing : Pairing) :
    (Twins.paired pairing).streams 0 pairing.first pairing.second :=
  ⟨pairing.tokens, fun _ member => .inl member, rfl, rfl⟩

end SelectSql
