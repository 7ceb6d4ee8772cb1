import Mathlib.Data.List.Forall2
import SelectSql.Proofs.Lexical.Tiling
import SelectSql.Proofs.Twins.Entry

/-!
Streams that are plain lists of tokens. A lexer is read as the list of its tokens is, lists of like
tokens are read alike, and a list is read as far as one that is cut short by a fault.
-/

namespace SelectSql

/-- Tokens in a row, and after them the end of input at some offset, or a fault. -/
structure Tape where
  /-- The tokens, the next one first. -/
  tokens : List Token
  /-- The offset of the end of input, or the fault that comes instead. -/
  ending : Except LexError Nat
  deriving DecidableEq

namespace Tape

/-- Takes the first token, or meets what comes after the last one. -/
def next (tape : Tape) : Except LexError Token × Tape :=
  -- The end stays in place, so it is met again and again.
  match tape.tokens with
  | token :: tokens => (.ok token, { tape with tokens })
  | [] => (tape.ending.map .eof, tape)

/-- Puts a token back in front of the others. -/
def push (tape : Tape) (token : Token) : Tape :=
  -- Whether the token was taken from here does not matter.
  { tape with tokens := token :: tape.tokens }

/-- The number of tokens that are not the end of input. -/
def unread (tape : Tape) : Nat :=
  -- The end of input may stand among the tokens if it was put back.
  tape.tokens.countP (!·.isEof)

/-- A list of tokens is a stream. -/
instance : TokenStream Tape where
  next := next
  push := push
  unread := unread
  unread_next := by
    rintro ⟨tokens, ending⟩ after token taken
    cases tokens with
    | nil =>
      -- Only the end of input comes after the last token, and it weighs nothing.
      cases ending with
      | error error => cases taken
      | ok place =>
        cases taken
        exact Nat.le_refl _
    | cons head tokens =>
      cases taken
      cases ends : token.isEof <;> simp [unread, Token.weight, ends]
  unread_failed := by
    rintro ⟨tokens, ending⟩ after error failed
    cases tokens with
    | nil =>
      cases ending <;> cases failed
      exact Nat.le_refl _
    | cons head tokens => cases failed
  unread_push := by
    rintro ⟨tokens, ending⟩ token
    cases ends : token.isEof <;> simp [unread, push, Token.weight, ends, Nat.add_comm]

end Tape

/-- A lexer gives the tokens of a tape one by one, and after them what comes after the last. -/
inductive Lexer.Holds : Lexer → Tape → Prop where
  | token {lexer after : Lexer} {token : Token} {tokens : List Token}
      {ending : Except LexError Nat} (taken : lexer.next = (.ok token, after))
      (holds : Holds after ⟨tokens, ending⟩) : Holds lexer ⟨token :: tokens, ending⟩
  | ended {lexer : Lexer} {place : Nat} (taken : lexer.next = (.ok (.eof place), lexer)) :
      Holds lexer ⟨[], .ok place⟩
  | failed {lexer after : Lexer} {error : LexError} (taken : lexer.next = (.error error, after)) :
      Holds lexer ⟨[], .error error⟩

section Holding

variable {position : Nat} {chars left : List Char} {tokens : List Token}

/-- A lexer holds the tokens that its text splits into, up to where no token can be read. -/
theorem Splits.exists_holds (splits : Splits position chars tokens left)
    (stops : ∀ kind taken rest, readLexeme left ≠ .lexeme kind taken rest) :
    ∃ ending, (⟨chars, position, []⟩ : Lexer).Holds ⟨tokens, ending⟩ ∧
      ∀ place, ending = .ok place ↔ left = [] ∧ place = stopOf position tokens := by
  induction splits with
  | @done position chars =>
    have scanned : (⟨chars, position, []⟩ : Lexer).next = _ := Lexer.next_eq_scan rfl
    have ended := @readLexeme_eq_finished chars
    cases found : readLexeme chars with
    | finished =>
      simp only [Lexer.scan, found] at scanned
      refine ⟨.ok position, .ended scanned, fun place => ?_⟩
      simp [ended.1 found, eq_comm]
    | lexeme kind taken rest => exact absurd found (stops kind taken rest)
    -- A fault is no end of input, and some of the text is left at it.
    | unclosed delimiter =>
      simp only [Lexer.scan, found] at scanned
      exact ⟨.error _, .failed scanned, fun place => by simp [← ended, found]⟩
    | unknown =>
      simp only [Lexer.scan, found] at scanned
      exact ⟨.error _, .failed scanned, fun place => by simp [← ended, found]⟩
  | @token position chars taken rest left kind tokens found _ ih =>
    obtain ⟨ending, holds, ended⟩ := ih stops
    have scanned : (⟨chars, position, []⟩ : Lexer).next = _ := Lexer.next_eq_scan rfl
    simp only [Lexer.scan, found] at scanned
    refine ⟨ending, .token scanned holds, ?_⟩
    rw [stopOf_cons]
    exact ended

/-- Every text is held by a tape of its tokens. -/
theorem Lexer.exists_holds (text : String) :
    ∃ tokens left ending, Splits 0 text.toList tokens left ∧
      (Lexer.ofText text).Holds ⟨tokens, ending⟩ ∧
      ∀ place, ending = .ok place ↔ left = [] ∧ place = stopOf 0 tokens := by
  obtain ⟨tokens, left, splits, stops, _⟩ := Lexer.exists_splits_drain text.toList 0
  obtain ⟨ending, holds, ended⟩ := splits.exists_holds stops
  exact ⟨tokens, left, ending, splits, holds, ended⟩

/-- A text that splits to its end is held by a tape that ends with the end of input. -/
theorem Splits.holds {text : String} (splits : Splits 0 text.toList tokens []) :
    (Lexer.ofText text).Holds ⟨tokens, .ok (stopOf 0 tokens)⟩ := by
  obtain ⟨ending, holds, ended⟩ := splits.exists_holds nofun
  rw [← (ended _).2 ⟨rfl, rfl⟩]
  exact holds

/-- A text with tokens is held by the tape of those in front of the end of input. -/
theorem exists_holds_of_tokenize {text : String} (split : tokenize text = .ok tokens) :
    ∃ front, tokens = front ++ [.eof text.utf8ByteSize] ∧
      (Lexer.ofText text).Holds ⟨front, .ok text.utf8ByteSize⟩ := by
  obtain ⟨front, shape, splits⟩ := tokenize_eq_ok.1 split
  obtain ⟨chars, whole, stop⟩ := splits.exists_stop
  have size : byteLength text.toList = text.utf8ByteSize := by
    rw [byteLength_eq, String.ofList_toList]
  -- All of the text is in front of where the tokens end.
  rw [List.append_nil] at whole
  rw [Nat.zero_add, ← whole, size] at stop
  refine ⟨front, by rw [shape, size], ?_⟩
  rw [← stop]
  exact splits.holds

namespace Lexer.Holds

variable {lexer : Lexer} {ending : Except LexError Nat}

/-- A lexer is drained of the tokens of its tape, up to what comes after them. -/
theorem drain_eq (holds : lexer.Holds ⟨tokens, ending⟩)
    (real : ∀ token ∈ tokens, token.isEof = false) :
    lexer.drain = (tokens, ending.map .eof) := by
  generalize same : (⟨tokens, ending⟩ : Tape) = tape at holds
  induction holds generalizing tokens with
  | token taken _ ih =>
    cases same
    obtain ⟨first, others⟩ := List.forall_mem_cons.1 real
    rw [drain_token taken first, ih others rfl]
  | ended taken =>
    cases same
    exact drain_ended taken rfl
  | failed taken =>
    cases same
    exact drain_failed taken

/-- A lexer gives the tokens of its tape with the end of input after them, or the fault there. -/
theorem tokenizeAll_eq (holds : lexer.Holds ⟨tokens, ending⟩)
    (real : ∀ token ∈ tokens, token.isEof = false) :
    lexer.tokenizeAll.1 = ending.map fun place => tokens ++ [.eof place] := by
  generalize same : (⟨tokens, ending⟩ : Tape) = tape at holds
  induction holds generalizing tokens with
  | token taken _ ih =>
    cases same
    obtain ⟨first, others⟩ := List.forall_mem_cons.1 real
    rw [tokenizeAll_token taken first, ih others rfl]
    cases ending <;> rfl
  | ended taken =>
    cases same
    exact tokenizeAll_ended taken rfl
  | failed taken =>
    cases same
    exact tokenizeAll_failed taken

end Lexer.Holds

end Holding

/-- The tokens of a tape, and the end of input if that comes after them. -/
def Tape.Gives (tape : Tape) (token : Token) : Prop :=
  -- Whatever a reader of the tape is given is one of these.
  token ∈ tape.tokens ∨ ∃ place, tape.ending = .ok place ∧ token = .eof place

/-- A tape that gives only what another gives, and ends as that one does. -/
structure Tape.Within (tape whole : Tape) : Prop where
  /-- The tokens are given by the other tape. -/
  tokens : ∀ token ∈ tape.tokens, whole.Gives token
  /-- The same comes after the last token. -/
  ending : tape.ending = whole.ending

namespace Twins

/-- A lexer beside the tape of its tokens. -/
def written (whole : Tape) : Twins Nat Lexer Tape where
  streams _ lexer tape := lexer.Holds tape ∧ tape.Within whole
  left _ _ _ := True
  tokens _ token other := token = other ∧ whole.Gives token
  faults _ := Eq
  ended _ := True
  excused _ := False
  like := by
    rintro _ token _ ⟨rfl, _⟩
    exact ⟨rfl, rfl⟩
  leave _ := trivial
  kept _ seen := seen
  next := by
    rintro stage lexer tape ⟨holds, within⟩
    cases holds with
    | @token _ after token tokens ending taken holds =>
      have taken : TokenStream.next lexer = _ := taken
      rw [taken]
      have given := within.tokens token (List.mem_cons_self ..)
      have after : (⟨tokens, ending⟩ : Tape).Within whole :=
        ⟨fun other member => within.tokens other (List.mem_cons_of_mem _ member), within.ending⟩
      exact ⟨⟨rfl, given⟩, ⟨.token (Lexer.next_push _ _) holds, within⟩, stage, le_refl stage,
        ⟨holds, after⟩, fun _ => trivial⟩
    | @ended _ place taken =>
      -- The end of input stays, also once it has been taken and put back.
      have again : TokenStream.next lexer = _ := taken
      rw [again]
      have given : whole.Gives (.eof place) := Or.inr ⟨place, within.ending.symm, rfl⟩
      have back : (⟨[.eof place], .ok place⟩ : Tape).Within whole := by
        refine ⟨fun other member => ?_, within.ending⟩
        obtain rfl := List.mem_singleton.1 member
        exact given
      exact ⟨⟨rfl, given⟩, ⟨.token (Lexer.next_push _ _) (.ended taken), back⟩, stage,
        le_refl stage, ⟨.ended taken, within⟩, fun _ => trivial⟩
    | failed taken =>
      have taken : TokenStream.next lexer = _ := taken
      rw [taken]
      exact .inl ⟨stage, le_refl stage, trivial, rfl⟩

/-- Two tapes of like tokens, both with the end of input after them, which may also stand among the
tokens of the second. -/
def likeTapes : Twins Nat Tape Tape where
  streams _ tape other := ∃ tokens others ends place stop, List.Forall₂ Token.Like tokens others ∧
    (∀ token ∈ ends, token.isEof = true) ∧ tape = ⟨tokens, .ok place⟩ ∧
    other = ⟨others ++ ends, .ok stop⟩
  left _ _ _ := True
  tokens _ := Token.Like
  faults _ _ _ := False
  ended _ := True
  excused _ := False
  like like := like
  leave _ := trivial
  kept _ seen := seen
  next := by
    rintro stage _ _ ⟨tokens, others, ends, place, stop, alike, ending, rfl, rfl⟩
    cases alike with
    | nil =>
      -- One is at its end, and the other is there too or has the end of input as its next token.
      cases ends with
      | nil =>
        have like : (Token.eof place).Like (.eof stop) := ⟨rfl, rfl⟩
        exact ⟨like, ⟨_, _, [], place, stop, .cons like .nil, ending, rfl, rfl⟩, stage,
          le_refl stage, ⟨_, _, [], place, stop, .nil, ending, rfl, rfl⟩, fun _ => trivial⟩
      | cons last ends =>
        have isEof := ending last (List.mem_cons_self ..)
        have like : (Token.eof place).Like last :=
          ⟨(beq_iff_eq.1 isEof).symm, (Token.lexeme_of_isEof isEof).symm⟩
        have after : ∀ token ∈ ends, token.isEof = true :=
          fun token member => ending token (List.mem_cons_of_mem _ member)
        exact ⟨like, ⟨_, _, ends, place, stop, .cons like .nil, after, rfl, rfl⟩, stage,
          le_refl stage, ⟨_, _, ends, place, stop, .nil, after, rfl, rfl⟩, fun _ => trivial⟩
    | cons like alike =>
      exact ⟨like, ⟨_, _, ends, place, stop, .cons like alike, ending, rfl, rfl⟩, stage,
        le_refl stage, ⟨_, _, ends, place, stop, alike, ending, rfl, rfl⟩, fun _ => trivial⟩

/-- A tape beside its front part, which a fault cuts short. -/
def cut (front : List Token) (fault : LexError) : Twins Nat Tape Tape where
  streams _ tape short := ∃ tokens back ending, (∀ token ∈ tokens, token ∈ front) ∧
    tape = ⟨tokens ++ back, ending⟩ ∧ short = ⟨tokens, .error fault⟩
  left _ _ _ := True
  tokens _ token other := token = other ∧ token ∈ front
  faults _ := Eq
  ended _ := True
  excused error := error = fault
  like := by
    rintro _ token _ ⟨rfl, _⟩
    exact ⟨rfl, rfl⟩
  leave _ := trivial
  kept _ seen := seen
  next := by
    rintro stage _ _ ⟨tokens, back, ending, inside, rfl, rfl⟩
    cases tokens with
    | nil =>
      -- Beyond the cut the longer tape may give anything.
      cases back with
      | nil => cases ending <;> first | exact .inr rfl | exact rfl
      | cons token back => exact rfl
    | cons token tokens =>
      have rest : ∀ other ∈ tokens, other ∈ front := fun other member =>
        inside other (List.mem_cons_of_mem _ member)
      exact ⟨⟨rfl, inside token (List.mem_cons_self ..)⟩,
        ⟨token :: tokens, back, ending, inside, rfl, rfl⟩, stage, le_refl stage,
        ⟨tokens, back, ending, rest, rfl, rfl⟩, fun _ => trivial⟩

end Twins

/-- A text is read as the tape of its tokens is, and a token is refused only if that gives it. -/
theorem Entry.parse_eq_read {text : String} {tape : Tape} (entry : Entry)
    (holds : (Lexer.ofText text).Holds tape) :
    entry.parse text = (entry.read tape).1 ∧
      ∀ found expected, entry.parse text = .error (.unexpected found expected) →
        tape.Gives found := by
  have within : tape.Within tape := ⟨fun token member => .inl member, rfl⟩
  have streams : (Twins.written tape).streams 0 (Lexer.ofText text) tape := ⟨holds, within⟩
  unfold Entry.parse
  rcases Twins.read_results entry streams with
    ⟨tree, first, second⟩ | ⟨later, error, fault, first, second, refusals⟩ | ⟨_, excused, _⟩
  · rw [first, second]
    exact ⟨rfl, fun _ _ same => by cases same⟩
  · rw [first, second]
    -- Refusals for one reason at one token or fault are the same.
    cases error <;> cases fault <;> first | exact refusals.elim | skip
    · obtain rfl : _ = _ := refusals
      exact ⟨rfl, fun _ _ same => by cases same⟩
    · obtain ⟨⟨rfl, given⟩, rfl⟩ := refusals
      refine ⟨rfl, fun found expected same => ?_⟩
      cases same
      exact given
    · obtain ⟨rfl, _⟩ := refusals
      exact ⟨rfl, fun _ _ same => by cases same⟩
  · exact excused.elim

end SelectSql
