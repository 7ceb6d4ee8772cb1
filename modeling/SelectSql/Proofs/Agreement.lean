import SelectSql.Proofs.Twins.Paired

/-!
Splitting a text and reading it agree. Reading finds no other fault than splitting does and passes
over none, and the token that it refuses is one of those that the text splits into.
-/

namespace SelectSql

/-- What reading a text gives, without contradiction to what splitting it gives. -/
structure Agrees (text : String) (result : Except ParseError Node) : Prop where
  /-- A text that is read splits into tokens. -/
  splits : ∀ tree, result = .ok tree → ∃ tokens, tokenize text = .ok tokens
  /-- A fault found in reading is the one found in splitting. -/
  fault : ∀ error, result = .error (.lexical error) → tokenize text = .error error
  /-- A fault found in splitting is found in reading, unless a token in front of it is refused. -/
  found : ∀ error, tokenize text = .error error → result = .error (.lexical error) ∨
    ∃ refusal token, result = .error refusal ∧ refusal.token? = some token ∧
      token.position < error.position
  /-- A token that is refused is one of those of the text, or the end of input after them. -/
  taken : ∀ refusal token, result = .error refusal → refusal.token? = some token →
    token ∈ (Lexer.ofText text).drain.1 ∨ (Lexer.ofText text).drain.2 = .ok token

variable {text : String} {tape : Tape}

section Bearing

/-- What reading a tape can give: a tree at the end of input, the fault after the tokens, or a
refusal of a token that the tape gives. -/
def Tape.Bears (tape : Tape) : Except ParseError Node → Prop
  | .ok _ => ∃ token, tape.Gives token ∧ token.isEof = true
  | .error (.lexical error) => tape.ending = .error error
  | .error (.unexpected found _) => tape.Gives found
  | .error (.trailing found) => tape.Gives found

/-- Reading a tape gives what the tape bears. -/
theorem Tape.bears_read (entry : Entry) (tape : Tape) : tape.Bears (entry.read tape).1 := by
  -- The tape is read in step with itself, which tells what the run has been given.
  have streams := (Pairing.itself tape).streams
  rw [Pairing.first_itself, Pairing.second_itself] at streams
  rcases Twins.read_results entry streams with
    ⟨tree, first, _⟩ | ⟨_, error, fault, first, _, refusals⟩ | ⟨_, excused, _⟩
  · -- A tree is only given once the end of input has been taken.
    rcases Twins.ended_of_read entry streams first with ⟨_, token, _, given, ending⟩ | ⟨_, excused⟩
    · rw [first]
      exact ⟨token, Pairing.gives_of_itself given, ending⟩
    · exact excused.elim
  · rw [first]
    -- Both refusals are of one kind, and the first names what the tape gives.
    cases error <;> cases fault <;> first | exact refusals.elim | skip
    · exact refusals.1
    · exact Pairing.gives_of_itself refusals.1
    · exact Pairing.gives_of_itself refusals
  · exact excused.elim

/-- A refusal that a tape bears is of a token that it gives. -/
theorem Tape.Bears.gives {refusal : ParseError} {token : Token}
    (bears : tape.Bears (.error refusal)) (blamed : refusal.token? = some token) :
    tape.Gives token := by
  cases refusal with
  -- A fault is no refusal of a token.
  | lexical error => cases blamed
  | unexpected found expected =>
    obtain rfl := Option.some.inj blamed
    exact bears
  | trailing found =>
    obtain rfl := Option.some.inj blamed
    exact bears

variable (real : ∀ token ∈ tape.tokens, token.isEof = false)

include real

/-- Only a tape that ends without a fault gives the end of input. -/
theorem Tape.Gives.ending_of_isEof {token : Token} (given : tape.Gives token)
    (isEof : token.isEof = true) : ∃ place, tape.ending = .ok place := by
  rcases given with member | ⟨place, ending, _⟩
  · -- No token of the tape is the end of input, so it comes after them.
    rw [real token member] at isEof
    cases isEof
  · exact ⟨place, ending⟩

/-- A tape that ends with a fault bears that fault, unless one of its tokens is refused. -/
theorem Tape.Bears.fault_or_refusal {result : Except ParseError Node} {error : LexError}
    (bears : tape.Bears result) (ending : tape.ending = .error error) :
    result = .error (.lexical error) ∨ ∃ refusal token, result = .error refusal ∧
      refusal.token? = some token ∧ token ∈ tape.tokens := by
  -- The end of input is never given, so every token that is given stands on the tape.
  have among : ∀ token, tape.Gives token → token ∈ tape.tokens := by
    rintro token (member | ⟨place, other, _⟩)
    · exact member
    · rw [ending] at other
      cases other
  cases result with
  -- A tree would need the end of input, and this tape has none to give.
  | ok tree =>
    obtain ⟨token, given, isEof⟩ := bears
    obtain ⟨place, other⟩ := given.ending_of_isEof real isEof
    rw [ending] at other
    cases other
  | error refusal =>
    cases refusal with
    | lexical other =>
      have same : tape.ending = .error other := bears
      rw [ending] at same
      cases same
      exact .inl rfl
    | unexpected found expected => exact .inr ⟨_, found, rfl, rfl, among found bears⟩
    | trailing found => exact .inr ⟨_, found, rfl, rfl, among found bears⟩

end Bearing

section Places

variable {position : Nat} {chars left : List Char} {tokens : List Token}

/-- No token ends behind the last one. -/
theorem Splits.stop_le (splits : Splits position chars tokens left) :
    ∀ token ∈ tokens, token.span.stop ≤ stopOf position tokens := by
  induction splits with
  | done => nofun
  -- The first token ends no later than the rest of them, which starts where it ends.
  | @token position chars taken rest left kind tokens _ splits ih =>
    obtain ⟨front, _, stop⟩ := splits.exists_stop
    rw [stopOf_cons]
    refine List.forall_mem_cons.2 ⟨?_, ih⟩
    rw [stop]
    exact Nat.le_add_right _ _

/-- A fault is reported where the lexer stands. -/
theorem Lexer.position_of_scan {lexer : Lexer} {error : LexError}
    (failed : lexer.scan.1 = .error error) : error.position = lexer.position := by
  unfold scan at failed
  split at failed <;> cases failed <;> rfl

/-- Every text is held by a tape, which tells how it is drained and how it splits. -/
theorem Lexer.exists_holds_drain (text : String) : ∃ tape, (ofText text).Holds tape ∧
    (ofText text).drain = (tape.tokens, tape.ending.map .eof) ∧
    tokenize text = tape.ending.map (fun place => tape.tokens ++ [.eof place]) ∧
    (∀ token ∈ tape.tokens, token.isEof = false) ∧
    ∀ error, tape.ending = .error error →
      ∀ token ∈ tape.tokens, token.position < error.position := by
  -- The text is split once, and the tape, the drain and the tokens are all read off that split.
  obtain ⟨tokens, left, splits, stops, drained⟩ := exists_splits_drain text.toList 0
  obtain ⟨ending, holds, _⟩ := splits.exists_holds stops
  have real : ∀ token ∈ tokens, token.isEof = false :=
    fun token member => (splits.covers token member).1.1
  have same := holds.drain_eq real
  refine ⟨⟨tokens, ending⟩, holds, same, holds.tokenizeAll_eq real, real, ?_⟩
  rintro error rfl token member
  -- The fault is found where the last token ends.
  rw [same] at drained
  have place := position_of_scan (congrArg Prod.snd drained).symm
  have size := (splits.covers token member).1.2
  have bound := splits.stop_le token member
  rw [place]
  exact Nat.lt_of_lt_of_le size bound

end Places

/-- Reading a text and splitting it agree on whether it splits, on the fault, and on the tokens. -/
theorem parse_agrees (entry : Entry) (text : String) : Agrees text (entry.parse text) := by
  obtain ⟨tape, holds, drained, split, real, before⟩ := Lexer.exists_holds_drain text
  -- What the tape bears is turned into what the text says, one field for each kind of result.
  have bears := tape.bears_read entry
  rw [← (entry.parse_eq_read holds).1] at bears
  exact {
    splits := by
      intro tree read
      rw [read] at bears
      obtain ⟨token, given, isEof⟩ := bears
      obtain ⟨place, ending⟩ := given.ending_of_isEof real isEof
      exact ⟨_, by rw [split, ending]; rfl⟩
    fault := by
      intro error read
      rw [read] at bears
      rw [split, show tape.ending = _ from bears]
      rfl
    found := by
      intro error failed
      -- The text splits if and only if the tape ends without a fault.
      have ending : tape.ending = .error error := by
        rw [split] at failed
        cases ending : tape.ending with
        | ok place => rw [ending] at failed; cases failed
        | error other => rw [ending] at failed; cases failed; rfl
      rcases bears.fault_or_refusal real ending with
        fault | ⟨refusal, token, refused, blamed, member⟩
      · exact .inl fault
      · exact .inr ⟨refusal, token, refused, blamed, before error ending token member⟩
    taken := by
      intro refusal token read blamed
      rw [read] at bears
      rw [drained]
      rcases bears.gives blamed with member | ⟨place, ending, rfl⟩
      · exact .inl member
      · exact .inr (by rw [ending]; rfl) }

end SelectSql
