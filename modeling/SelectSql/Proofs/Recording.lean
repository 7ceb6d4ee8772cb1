import Mathlib.Data.List.Chain
import SelectSql.Proofs.Reuse

/-!
All the states that a lexer is in while texts are read from it, those in the middle of a call
included. At most one token is put back at a time, and it is the one that was read from the text
last.
-/

namespace SelectSql

/-- A lexer between two operations, with what came of the last attempt to read from its text. -/
structure Moment where
  /-- The lexer itself. -/
  lexer : Lexer
  /-- The token that was read from the text last, or the fault met in its place. -/
  latest : Option (Except LexError Token)

/-- A lexer that keeps a record of the moments it has been through. -/
structure Recorder where
  /-- The moment it has come to. -/
  now : Moment
  /-- The moments before, the latest of them first. -/
  past : List Moment

/-- Calls of the entries in a row, each on what the one before has left of a stream: their results,
and what is left in the end. -/
def Entry.readAll {σ : Type} [TokenStream σ] (stream : σ) :
    List Entry → List (Except ParseError Node) × σ
  -- A refusal leaves a stream too, so the calls go on after it.
  | [] => ([], stream)
  | entry :: entries =>
    let (result, after) := entry.read stream
    (readAll after entries).map (result :: ·) id

namespace Moment

/-- Before anything is taken from a text. -/
def ofText (text : String) : Moment :=
  ⟨.ofText text, none⟩

/-- After the next token is taken, or could not be. -/
def next (moment : Moment) : Moment where
  lexer := moment.lexer.next.2
  -- A token that was put back is not read from the text again.
  latest := if moment.lexer.pushed = [] then some moment.lexer.scan.1 else moment.latest

/-- After a token is put back. -/
def push (moment : Moment) (token : Token) : Moment :=
  { moment with lexer := moment.lexer.push token }

/-- What holds of a lexer over a text at a moment: a token that is put back is the only one, and is
the one that was read last. -/
structure Holds (text : String) (moment : Moment) : Prop where
  /-- The lexer stands at a place of the text, and has the text from there on before it. -/
  place : RestAt text moment.lexer.position (String.ofList moment.lexer.rest)
  /-- No two tokens are put back. -/
  single : moment.lexer.pushed.length ≤ 1
  /-- What is put back was read last. -/
  latest : ∀ token ∈ moment.lexer.pushed, moment.latest = some (.ok token)
  /-- It ends where the lexer stands. -/
  ends : ∀ token ∈ moment.lexer.pushed, token.span.stop = moment.lexer.position
  /-- Reading the text from where it begins gives it again, and leads to where the lexer stands. -/
  again : ∀ token ∈ moment.lexer.pushed, ∃ rest, RestAt text token.span.start rest ∧
    (⟨rest.toList, token.span.start, []⟩ : Lexer).scan =
      (.ok token, { moment.lexer with pushed := [] })

end Moment

namespace Recorder

/-- Before anything is taken from a text. -/
def ofText (text : String) : Recorder :=
  ⟨.ofText text, []⟩

/-- All moments on record, the latest of them first. -/
def moments (recorder : Recorder) : List Moment :=
  recorder.now :: recorder.past

/-- Takes the next token, and puts the moment before on record. -/
def next (recorder : Recorder) : Except LexError Token × Recorder :=
  (recorder.now.lexer.next.1, ⟨recorder.now.next, recorder.moments⟩)

/-- Puts a token back, and the moment before on record. -/
def push (recorder : Recorder) (token : Token) : Recorder :=
  ⟨recorder.now.push token, recorder.moments⟩

/-- What is recorded is read as a stream of tokens, each operation on which makes one moment. -/
instance : TokenStream Recorder where
  next := next
  push := push
  unread recorder := recorder.now.lexer.unread
  unread_next {recorder after token} taken := by
    obtain ⟨given, rfl⟩ := Prod.mk.inj taken
    exact Lexer.unread_next (Prod.ext given rfl)
  unread_failed {recorder after error} failed := by
    obtain ⟨given, rfl⟩ := Prod.mk.inj failed
    exact Lexer.unread_failed (Prod.ext given rfl)
  unread_push recorder token := recorder.now.lexer.unread_push token

/-- A record of all that has happened to a lexer over a text. -/
structure Accounts (text : String) (recorder : Recorder) : Prop where
  /-- It begins with the text untouched. -/
  begins : recorder.moments.getLast? = some (.ofText text)
  /-- Each moment is one operation later than the one before it. -/
  steps : recorder.moments.IsChain fun after before =>
    after = before.next ∨ ∃ token, after = before.push token
  /-- A token that is put back at any of the moments is the only one, and was read last. -/
  holds : ∀ moment ∈ recorder.moments, moment.Holds text

end Recorder

variable {text : String} {lexer after : Lexer} {token : Token} {moment : Moment}
  {recorder : Recorder}

section Moments

/-- A token that is read from a text covers the bytes that the lexer has gone past. -/
theorem Lexer.span_of_scan (scanned : lexer.scan = (.ok token, after)) :
    token.span = ⟨lexer.position, after.position⟩ := by
  unfold scan at scanned
  -- A lexeme and the end of input have such a span, and a fault is no token.
  split at scanned <;> cases scanned <;> rfl

/-- A lexer with nothing put back stays inside its text, whatever it reads there. -/
theorem RestAt.scan {rest : List Char} {position : Nat}
    (place : RestAt text position (String.ofList rest)) :
    ∃ later left, (⟨rest, position, []⟩ : Lexer).scan.2 = ⟨left, later, []⟩ ∧
      RestAt text later (String.ofList left) := by
  -- What is scanned is taken from the front, so the place moves on by as many bytes.
  obtain ⟨taken, left, outcome, rfl, step, _⟩ := Lexer.exists_next rest position
  obtain ⟨front, whole, size⟩ := place
  rw [Lexer.next_eq_scan rfl] at step
  refine ⟨_, left, congrArg Prod.snd step, front ++ String.ofList taken, ?_, ?_⟩
  · rw [whole, String.ofList_append, String.append_assoc]
  · rw [String.utf8ByteSize_append, size, byteLength_eq]

namespace Moment.Holds

/-- With nothing put back there is only a place to be known. -/
theorem of_place {left : List Char} {position : Nat} {latest : Option (Except LexError Token)}
    (place : RestAt text position (String.ofList left)) :
    Moment.Holds text ⟨⟨left, position, []⟩, latest⟩ where
  place := place
  single := Nat.zero_le 1
  latest := List.forall_mem_nil _
  ends := List.forall_mem_nil _
  again := List.forall_mem_nil _

/-- Taking a token leaves none put back, whether it comes from the text or was put back itself. -/
theorem next (holds : moment.Holds text) : moment.next.Holds text := by
  obtain ⟨⟨rest, position, pushed⟩, latest⟩ := moment
  rcases pushed with _ | ⟨head, _ | ⟨other, tail⟩⟩
  · -- Nothing was put back, so the token is scanned from the text.
    obtain ⟨later, left, scanned, place⟩ := holds.place.scan
    rw [Moment.next, Lexer.next_eq_scan rfl, scanned]
    exact of_place place
  · -- The token that was put back is taken, and the lexer stays where it stands.
    exact of_place holds.place
  · -- More than one is never put back.
    exact absurd holds.single (by simp)

/-- Putting back the token that was just taken leaves it the only one. -/
theorem next_push (holds : moment.Holds text) (taken : moment.lexer.next.1 = .ok token) :
    (moment.next.push token).Holds text := by
  obtain ⟨⟨rest, position, pushed⟩, latest⟩ := moment
  rcases pushed with _ | ⟨head, _ | ⟨other, tail⟩⟩
  · -- A token from the text was read last, from where the lexer stood before.
    obtain ⟨later, left, scanned, place⟩ := holds.place.scan
    rw [Lexer.next_eq_scan rfl] at taken
    have read : (⟨rest, position, []⟩ : Lexer).scan = (.ok token, ⟨left, later, []⟩) :=
      Prod.ext taken scanned
    have span := Lexer.span_of_scan read
    rw [Moment.next, Lexer.next_eq_scan rfl, read]
    refine ⟨place, Nat.le_refl 1, ?_, ?_, ?_⟩ <;>
      rw [Moment.push, Lexer.push, List.forall_mem_singleton]
    · rfl
    · rw [span]
    · rw [span]
      refine ⟨String.ofList rest, holds.place, ?_⟩
      rw [String.toList_ofList]
      exact read
  · -- A token that was put back before is put back again.
    obtain rfl : head = token := Except.ok.inj taken
    exact holds
  · exact absurd holds.single (by simp)

end Moment.Holds

end Moments

section Records

namespace Recorder

/-- The next token is taken as from the lexer alone. -/
theorem next_eq (recorder : Recorder) :
    recorder.next = (recorder.now.lexer.next.1, recorder.next.2) := rfl

/-- A fresh record is one of what has happened so far. -/
theorem accounts_ofText (text : String) : (ofText text).Accounts text where
  begins := rfl
  steps := List.isChain_singleton _
  holds := by
    rw [moments, ofText, List.forall_mem_singleton]
    exact .of_place ⟨"", by simp, rfl⟩

/-- A record is continued by one operation that leaves what holds at every moment. -/
theorem Accounts.cons {now : Moment} (accounts : recorder.Accounts text)
    (step : now = recorder.now.next ∨ ∃ token, now = recorder.now.push token)
    (holds : now.Holds text) : (⟨now, recorder.moments⟩ : Recorder).Accounts text where
  begins := accounts.begins
  steps := .cons_cons step accounts.steps
  holds := List.forall_mem_cons.2 ⟨holds, accounts.holds⟩

/-- Taking a token continues the record. -/
theorem Accounts.next (accounts : recorder.Accounts text) : recorder.next.2.Accounts text :=
  accounts.cons (.inl rfl) (accounts.holds _ (List.mem_cons_self ..)).next

/-- Putting back a token that was just taken continues the record further. -/
theorem Accounts.next_push (accounts : recorder.Accounts text)
    (taken : recorder.now.lexer.next.1 = .ok token) :
    (recorder.next.2.push token).Accounts text :=
  accounts.next.cons (.inr ⟨token, rfl⟩)
    ((accounts.holds _ (List.mem_cons_self ..)).next_push taken)

end Recorder

/-- A lexer that keeps a record beside one that does not. -/
def Twins.recorded (text : String) : Twins Nat Recorder Lexer where
  streams _ recorder lexer := recorder.now.lexer = lexer ∧ recorder.Accounts text
  left _ recorder lexer := recorder.now.lexer = lexer ∧ recorder.Accounts text
  tokens _ token other := other = token
  faults _ := Eq
  ended _ := True
  excused _ := False
  like := by
    rintro _ token _ rfl
    exact ⟨rfl, rfl⟩
  leave same := same
  kept _ seen := seen
  next := by
    rintro stage recorder _ ⟨rfl, accounts⟩
    -- Either operation on the record does to its lexer what it would do to the lexer alone.
    have given : TokenStream.next recorder = recorder.next := rfl
    have plain : TokenStream.next recorder.now.lexer = recorder.now.lexer.next := rfl
    have follows : recorder.next.2.now.lexer = recorder.now.lexer.next.2 := rfl
    -- A token is only ever put back right after it was taken.
    have back : ∀ token, recorder.now.lexer.next.1 = .ok token →
        (recorder.next.2.push token).Accounts text := fun _ => accounts.next_push
    rw [given, plain, recorder.next_eq]
    rcases taken : recorder.now.lexer.next with ⟨error | token, after⟩
    all_goals rw [taken] at follows back
    · exact .inl ⟨stage, le_refl stage, ⟨follows, accounts.next⟩, rfl⟩
    · have same := congrArg (Lexer.push · token) follows
      refine ⟨rfl, ⟨same, back token rfl⟩, stage, le_refl stage, ?_⟩
      exact ⟨⟨follows, accounts.next⟩, fun _ => trivial⟩

/-- A call gives the same with a record and without one, and continues the record. -/
theorem Recorder.Accounts.read (accounts : recorder.Accounts text) (entry : Entry) :
    entry.read recorder.now.lexer =
        ((entry.read recorder).1, (entry.read recorder).2.now.lexer) ∧
      (entry.read recorder).2.Accounts text := by
  -- The two lexers are the same to begin with, so they are read in step.
  have streams : (Twins.recorded text).streams 0 recorder recorder.now.lexer := ⟨rfl, accounts⟩
  have agree := (Twins.recorded text).read_agree entry streams
  generalize entry.read recorder = first at agree ⊢
  generalize entry.read recorder.now.lexer = second at agree ⊢
  rcases first with ⟨error | tree, last⟩ <;> rcases second with ⟨fault | other, beyond⟩
  · cases agree with
    | refused _ left refusals =>
      obtain ⟨rfl, continued⟩ := left
      -- Both streams give the same tokens and faults, so there is one reason for both refusals.
      rw [Twins.eq_of_refusals_of_eq (fun _ _ => Eq.symm) (fun _ _ => id) refusals]
      exact ⟨rfl, continued⟩
    | excused excused => exact excused.elim
  · cases agree
  · cases agree with
    | excused excused => exact excused.elim
  · cases agree with
    | ok _ streams holds =>
      obtain ⟨rfl, continued⟩ := streams
      obtain ⟨rfl, _⟩ := holds
      exact ⟨rfl, continued⟩

/-- Calls in a row give the same with a record and without one, and continue the record. -/
theorem Recorder.Accounts.readAll (accounts : recorder.Accounts text) (entries : List Entry) :
    Entry.readAll recorder.now.lexer entries =
        (Entry.readAll recorder entries).map id (·.now.lexer) ∧
      (Entry.readAll recorder entries).2.Accounts text := by
  induction entries generalizing recorder with
  | nil => exact ⟨rfl, accounts⟩
  | cons entry entries ih =>
    -- The next call starts from the record that this one has continued, refused or not.
    obtain ⟨same, continued⟩ := accounts.read entry
    obtain ⟨others, complete⟩ := ih continued
    refine ⟨?_, complete⟩
    simp only [Entry.readAll, same, others, Prod.map_map]
    rfl

end Records

/-- Reading a text from a lexer that keeps a record is reading it from the lexer alone; and at every
moment of the record, in the middle of a call or between two, whether or not the calls before were
refused, at most one token is put back, and that is the one that was read last: it ends where the
lexer stands, and is read again from where it begins. -/
theorem reading_putsBackLatest (text : String) (entries : List Entry) :
    Entry.readAll (Lexer.ofText text) entries =
        (Entry.readAll (Recorder.ofText text) entries).map id (·.now.lexer) ∧
      (Entry.readAll (Recorder.ofText text) entries).2.Accounts text :=
  (Recorder.accounts_ofText text).readAll entries

/-- The places of a lexer and the tokens put back, through three calls that are refused. -/
example : ((Entry.readAll (Recorder.ofText "1 '") [.statement, .select, .source]).2.moments.map
    fun moment => (moment.lexer.position, moment.lexer.pushed.map Token.text)).reverse =
      [(0, []), (1, []), (1, ["1"]), (1, []), (1, ["1"]), (1, []), (1, ["1"]), (1, []), (2, []),
        (3, [])] := by
  decide +kernel

end SelectSql
