import SelectSql.Proofs.Twins.Suffix

/-!
Calling the entries one after the other on one lexer. Each call gives what a fresh lexer would give
over the part of the text that is left, with every place later by the bytes in front of it.
-/

namespace SelectSql

/-- The results of calls in a row, each on what the call before has left. -/
def Lexer.results (lexer : Lexer) : List Entry → List (Except ParseError Node)
  -- A refusal leaves a lexer too, so the calls go on after it.
  | [] => []
  | entry :: entries =>
    let (result, after) := entry.read lexer
    result :: after.results entries

/-- What a text has from a byte offset on, which no character contains. -/
def RestAt (text : String) (offset : Nat) (rest : String) : Prop :=
  -- The offset counts the bytes of what is in front.
  ∃ front, text = front ++ rest ∧ front.utf8ByteSize = offset

/-- Calls that give what fresh ones would, over what is left of a text from a byte offset on. -/
inductive Replays (text : String) : Nat → List Entry → List (Except ParseError Node) → Prop where
  | done {offset : Nat} {rest : String} (place : RestAt text offset rest) :
      Replays text offset [] []
  | call {offset later : Nat} {rest : String} {entry : Entry} {entries : List Entry}
      {result : Except ParseError Node} {results : List (Except ParseError Node)}
      (place : RestAt text offset rest)
      (fresh : result = (entry.parse rest).mapError (·.shift offset))
      (forward : offset ≤ later)
      (reached : ∀ error, result = .error error → error.position ≤ later)
      (spent : ∀ tree, result = .ok tree → later = text.utf8ByteSize)
      (unclosed : ∀ position delimiter,
        result = .error (.lexical (.unterminatedQuote position delimiter)) →
          later = text.utf8ByteSize)
      (calls : Replays text later entries results) :
      Replays text offset (entry :: entries) (result :: results)

/-- The place of a refusal. -/
def refusedAt? : Except ParseError Node → Option Nat
  -- A tree has no place.
  | .ok _ => none
  | .error error => some error.position

variable {text : String} {offset : Nat} {entries : List Entry}
  {results : List (Except ParseError Node)} {lexer : Lexer}

namespace Replays

/-- Calls begin inside the text or at its end. -/
theorem offset_le (replays : Replays text offset entries results) :
    offset ≤ text.utf8ByteSize := by
  have bounded : ∀ {rest}, RestAt text offset rest → offset ≤ text.utf8ByteSize := by
    rintro rest ⟨front, rfl, rfl⟩
    rw [String.utf8ByteSize_append]
    exact Nat.le_add_right _ _
  cases replays with
  | done place => exact bounded place
  | call place => exact bounded place

/-- At the end of a text no call succeeds. -/
theorem refused_at_end (replays : Replays text text.utf8ByteSize entries results) :
    results.countP (·.isOk) = 0 := by
  generalize ended : text.utf8ByteSize = offset at replays
  induction replays with
  | done => rfl
  | @call offset later rest entry _ _ _ place fresh forward _ _ _ calls ih =>
    subst ended
    -- Nothing is left, and no entry accepts the empty text.
    obtain rfl : rest = "" := by
      obtain ⟨front, whole, size⟩ := place
      have bytes := congrArg String.utf8ByteSize whole
      rw [String.utf8ByteSize_append, size] at bytes
      exact String.utf8ByteSize_eq_zero_iff.1 (by omega)
    have refused : (entry.parse "").isOk = false := by
      cases entry <;> decide +kernel
    rw [List.countP_cons_of_neg]
    · exact ih (Nat.le_antisymm forward calls.offset_le)
    · rw [fresh]
      cases outcome : entry.parse "" with
      | ok tree => rw [outcome] at refused; cases refused
      | error error => exact Bool.false_ne_true

/-- At most one call succeeds. -/
theorem countP_isOk_le (replays : Replays text offset entries results) :
    results.countP (·.isOk) ≤ 1 := by
  induction replays with
  | done => exact Nat.zero_le 1
  | @call _ later _ _ _ result _ _ _ _ _ spent _ calls ih =>
    cases result with
    | error error =>
      rw [List.countP_cons_of_neg (by simp [Except.isOk, Except.toBool])]
      exact ih
    | ok tree =>
      -- The text is at its end after a success.
      obtain rfl := spent tree rfl
      rw [List.countP_cons_of_pos (by rfl), calls.refused_at_end]

/-- No refusal is reported in front of where a call began. -/
theorem offset_le_of_mem (replays : Replays text offset entries results) :
    ∀ place ∈ results.filterMap refusedAt?, offset ≤ place := by
  induction replays with
  | done => simp
  | @call offset later rest entry _ result _ _ fresh forward _ _ _ calls ih =>
    intro place member
    obtain ⟨given, held, same⟩ := List.mem_filterMap.1 member
    -- A refusal is one of this call, shifted by the offset, or of a call after it.
    rcases List.mem_cons.1 held with rfl | held
    · cases outcome : entry.parse rest with
      | ok tree =>
        rw [fresh, outcome] at same
        cases same
      | error error =>
        rw [fresh, outcome] at same
        obtain rfl := Option.some.inj same
        rw [ParseError.position_shift]
        exact Nat.le_add_left _ _
    · exact Nat.le_trans forward (ih place (List.mem_filterMap.2 ⟨given, held, same⟩))

/-- The places of refusals never go backwards. -/
theorem pairwise_places (replays : Replays text offset entries results) :
    (results.filterMap refusedAt?).Pairwise (· ≤ ·) := by
  induction replays with
  | done => exact .nil
  | @call offset later rest entry _ result _ _ _ _ reached _ _ calls ih =>
    cases result with
    | ok tree => exact ih
    | error error =>
      refine List.pairwise_cons.2 ⟨fun place member => ?_, ih⟩
      exact Nat.le_trans (reached error rfl) (calls.offset_le_of_mem place member)

end Replays

section Calling

/-- A lexer that has come to a byte offset of a text, and may have looked at its next token. -/
def StandsAt (text : String) (offset : Nat) (lexer : Lexer) : Prop :=
  -- What was looked at is read again, so nothing of the text is lost.
  ∃ front left, text.toList = front ++ left ∧ byteLength front = offset ∧
    lexer.Resumes ⟨left, offset, []⟩

/-- Refusals beside each other differ in place only, and are not reported ahead of the lexer. -/
theorem Twins.eq_shift_of_refusals {stage : Nat} {error fault : ParseError}
    (refusals : (Twins.suffix text offset).Refusals stage error fault) :
    error = fault.shift offset ∧ error.position ≤ stage ∧ ∀ position delimiter,
      error = .lexical (.unterminatedQuote position delimiter) → stage = text.utf8ByteSize := by
  cases error <;> cases fault <;> first | exact refusals.elim | skip
  · obtain ⟨rfl, reached, unclosed⟩ := refusals
    refine ⟨rfl, reached, fun position delimiter same => ?_⟩
    exact unclosed position delimiter (ParseError.lexical.inj same)
  · obtain ⟨⟨rfl, reached⟩, rfl⟩ := refusals
    exact ⟨rfl, reached, nofun⟩
  · obtain ⟨rfl, reached⟩ := refusals
    exact ⟨rfl, reached, nofun⟩

/-- A call gives what a fresh lexer would, and leaves a lexer that has come as far as it reports. -/
theorem StandsAt.read (stands : StandsAt text offset lexer) (entry : Entry) :
    ∃ rest later, RestAt text offset rest ∧
      (entry.read lexer).1 = (entry.parse rest).mapError (·.shift offset) ∧ offset ≤ later ∧
      StandsAt text later (entry.read lexer).2 ∧
      (∀ error, (entry.read lexer).1 = .error error → error.position ≤ later ∧
        ∀ position delimiter, error = .lexical (.unterminatedQuote position delimiter) →
          later = text.utf8ByteSize) ∧
      ∀ tree, (entry.read lexer).1 = .ok tree → later = text.utf8ByteSize := by
  obtain ⟨front, left, whole, bytes, resumes⟩ := stands
  have place : RestAt text offset (String.ofList left) := by
    refine ⟨String.ofList front, ?_, ?_⟩
    · rw [← String.ofList_append, ← whole, String.ofList_toList]
    · rw [← byteLength_eq, bytes]
  -- The fresh lexer has nothing in front of it, so it stands at its own beginning.
  have beside : Beside text offset offset lexer (Lexer.ofText (String.ofList left)) := by
    refine ⟨front, left, 0, whole, bytes, (Nat.zero_add offset).symm, resumes, Or.inl ?_⟩
    rw [Lexer.ofText, String.toList_ofList]
  have agree := (Twins.suffix text offset).read_agree entry beside
  refine ⟨String.ofList left, ?_⟩
  unfold Entry.parse
  generalize entry.read lexer = first at agree ⊢
  generalize entry.read (Lexer.ofText (String.ofList left)) = second at agree ⊢
  -- No fault is excused here, so both calls are refused or both give a tree.
  rcases first with ⟨error | tree, after⟩ <;> rcases second with ⟨fault | other, beyond⟩
  · cases agree with
    | @refused later _ _ _ _ forward beside refusals =>
      obtain ⟨rfl, reached, unclosed⟩ := Twins.eq_shift_of_refusals refusals
      obtain ⟨front, left, _, whole, bytes, _, resumes, _⟩ := beside
      refine ⟨later, place, rfl, forward, ⟨front, left, whole, bytes, resumes⟩, ?_, nofun⟩
      rintro error same
      obtain rfl := Except.error.inj same
      exact ⟨reached, unclosed⟩
    | excused excused => exact excused.elim
  · cases agree
  · cases agree with
    | excused excused => exact excused.elim
  · cases agree with
    | @ok later _ _ _ _ forward streams holds =>
      obtain ⟨rfl, ended⟩ := holds
      obtain ⟨front, left, _, whole, bytes, _, resumes, _⟩ := streams
      refine ⟨later, place, rfl, forward, ⟨front, left, whole, bytes, resumes⟩, ?_,
        fun _ _ => ended⟩
      rintro _ ⟨⟩

/-- Calls in a row on a lexer inside a text give what fresh lexers would. -/
theorem StandsAt.replays (stands : StandsAt text offset lexer) (entries : List Entry) :
    Replays text offset entries (lexer.results entries) := by
  induction entries generalizing lexer offset with
  | nil =>
    obtain ⟨rest, _, place, _⟩ := stands.read .statement
    exact .done place
  | cons entry entries ih =>
    obtain ⟨rest, later, place, fresh, forward, follows, reached, spent⟩ := stands.read entry
    exact .call place fresh forward (fun error same => (reached error same).1) spent
      (fun position delimiter same => (reached _ same).2 position delimiter rfl) (ih follows)

end Calling

/-- Calls in a row on a text give what fresh ones would on what is left of it, at most one of them
succeeds, and what they refuse never goes backwards. -/
theorem results_replay (text : String) (entries : List Entry) :
    Replays text 0 entries ((Lexer.ofText text).results entries) ∧
      ((Lexer.ofText text).results entries).countP (·.isOk) ≤ 1 ∧
      (((Lexer.ofText text).results entries).filterMap refusedAt?).Pairwise (· ≤ ·) := by
  have stands : StandsAt text 0 (Lexer.ofText text) :=
    ⟨[], text.toList, rfl, rfl, Or.inl rfl⟩
  have replays := stands.replays entries
  exact ⟨replays, replays.countP_isOk_le, replays.pairwise_places⟩

end SelectSql
