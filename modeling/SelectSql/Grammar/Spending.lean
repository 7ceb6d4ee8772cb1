import SelectSql.Grammar.Parsing

/-!
Parsers that finish. A parser spends tokens: it never gives up while fewer tokens are left than its
bound, and each success takes a stated number of them. How tokens are counted is left open, so one
account of the grammar serves every count that gives weight to all tokens but white space.
-/

namespace SelectSql

/-- Whether the token is text of its own: neither white space nor the end of input. -/
def Token.isSolid (token : Token) : Bool :=
  -- White space may stand almost anywhere, so only the other tokens show progress.
  !(token.isEof || token.isSpace)

/-- A token that is not text of its own is white space or the end of input. -/
theorem Token.kind_of_not_isSolid {token : Token} (thin : token.isSolid = false) :
    token.kind = .eof ∨ token.kind = .space := by
  -- Both tests are of the category.
  simp only [isSolid, isEof, isSpace, Bool.not_eq_false', Bool.or_eq_true, beq_iff_eq] at thin
  exact thin

/-- A measure of what is left of a stream, with the refusals that a parser may give. -/
structure Gauge (σ : Type) [TokenStream σ] where
  /-- How much is left of a stream. -/
  left : σ → Nat
  /-- How much a token counts towards that. -/
  weight : Token → Nat
  /-- The reasons for which a text may be refused. -/
  admits : ParseError → Prop
  /-- Each token that is text of its own counts. -/
  weight_pos : ∀ {token : Token}, token.isSolid = true → 0 < weight token
  /-- A token taken is no longer left. -/
  left_next : ∀ {stream after : σ} {token : Token},
    TokenStream.next stream = (.ok token, after) → left after + weight token ≤ left stream
  /-- A token put back counts no more than it did. -/
  left_push : ∀ (stream : σ) (token : Token),
    left (TokenStream.push stream token) ≤ weight token + left stream
  /-- A text may be refused because it does not split into tokens. -/
  lexical : ∀ error : LexError, admits (.lexical error)
  /-- A text may be refused because a token stands where another is required. -/
  unexpected : ∀ (found : Token) (expected : Option Expectation),
    admits (.unexpected found expected)

/-- The count of unread tokens, for which any refusal will do. -/
def Gauge.tokens (σ : Type) [TokenStream σ] : Gauge σ where
  left := TokenStream.unread
  weight := Token.weight
  admits _ := True
  weight_pos := by
    -- Only the end of input has no weight.
    intro token solid
    cases ending : token.isEof with
    | true => simp [Token.isSolid, ending] at solid
    | false => simp [Token.weight, ending]
  left_next := TokenStream.unread_next
  left_push stream token := Nat.le_of_eq (TokenStream.unread_push stream token)
  lexical _ := trivial
  unexpected _ _ := trivial

namespace Parsing

variable {σ α β : Type}

/-- Running two parsers in a row. -/
theorem bind_apply (first : Parsing σ α) (second : α → Parsing σ β) (stream : σ) :
    (first >>= second) stream =
      match first stream with
      | .ok value after => second value after
      | .error halt after => .error halt after := by
  cases found : first stream <;> simp [bind, EStateM.bind, found]

/-- What the first of two parsers gives is what the second goes on from. -/
theorem bind_of_ok {first : Parsing σ α} {second : α → Parsing σ β} {stream after : σ} {value : α}
    (run : first stream = .ok value after) : (first >>= second) stream = second value after := by
  rw [bind_apply, run]

/-- If the first of two parsers stops, so do both. -/
theorem bind_of_error {first : Parsing σ α} {second : α → Parsing σ β} {stream after : σ}
    {halt : Halt} (run : first stream = .error halt after) :
    (first >>= second) stream = .error halt after := by
  rw [bind_apply, run]

/-- Two parsers in a row give a value where the first gives one that the second goes on from. -/
theorem bind_eq_ok {first : Parsing σ α} {second : α → Parsing σ β} {stream after : σ} {value : β} :
    (first >>= second) stream = .ok value after ↔
      ∃ middle between, first stream = .ok middle between ∧
        second middle between = .ok value after := by
  rw [bind_apply]
  constructor
  · -- If the first parser stops, so do both.
    intro run
    cases begun : first stream with
    | ok middle between =>
      rw [begun] at run
      exact ⟨middle, between, rfl, run⟩
    | error halt between =>
      rw [begun] at run
      cases run
  · intro ⟨middle, between, begun, run⟩
    rw [begun]
    exact run

variable [TokenStream σ]

open TokenStream (unread)

/-- With less than `bound` left the parser never gives up, and success takes `cost`. -/
def SpendsBy (gauge : Gauge σ) (bound cost : Nat) (parser : Parsing σ α) : Prop :=
  ∀ stream, gauge.left stream < bound →
    match parser stream with
    | .ok _ after => gauge.left after + cost ≤ gauge.left stream
    | .error (.refused error) _ => gauge.admits error
    | .error .exhausted _ => False

/-- With fewer than `bound` tokens unread the parser never gives up, and success takes `cost`. -/
def Spends (bound cost : Nat) (parser : Parsing σ α) : Prop :=
  ∀ stream, unread stream < bound →
    match parser stream with
    | .ok _ after => unread after + cost ≤ unread stream
    | .error (.refused _) _ => True
    | .error .exhausted _ => False

variable {gauge : Gauge σ}

/-- Parsers that spend what the count of unread tokens counts spend tokens. -/
theorem SpendsBy.spends {bound cost : Nat} {parser : Parsing σ α}
    (spends : SpendsBy (.tokens σ) bound cost parser) : Spends bound cost parser :=
  -- The count is the same, and so is what is asked of each outcome.
  spends

/-- A success takes what the parser costs. -/
theorem SpendsBy.left_le {bound cost : Nat} {parser : Parsing σ α} {stream after : σ} {value : α}
    (spends : SpendsBy gauge bound cost parser) (few : gauge.left stream < bound)
    (run : parser stream = .ok value after) : gauge.left after + cost ≤ gauge.left stream := by
  -- This is what is asked of the outcome.
  have taken := spends stream few
  rw [run] at taken
  exact taken

/-- A parser does not give up while its bound is above what is left. -/
theorem SpendsBy.ne_exhausted {bound cost : Nat} {parser : Parsing σ α} {stream : σ}
    (spends : SpendsBy gauge bound cost parser) (few : gauge.left stream < bound) (after : σ) :
    parser stream ≠ .error .exhausted after := by
  -- Giving up is the one outcome that is not allowed.
  intro found
  have taken := spends stream few
  rw [found] at taken
  exact taken

/-- A parser that goes on where less is left owes no more than what has not been taken yet. -/
theorem SpendsBy.resume {bound cost total : Nat} {parser : Parsing σ α} {stream between : σ}
    (spends : SpendsBy gauge bound cost parser) (few : gauge.left between < bound)
    (taken : gauge.left between + total ≤ gauge.left stream + cost) :
    match parser between with
    | .ok _ after => gauge.left after + total ≤ gauge.left stream
    | .error (.refused error) _ => gauge.admits error
    | .error .exhausted _ => False := by
  -- Of the three outcomes, only a success is asked for tokens.
  have run := spends between few
  generalize parser between = outcome at run ⊢
  rcases outcome with ⟨value, after⟩ | ⟨error | _, after⟩
  · simp only at run ⊢
    omega
  · exact run
  · exact run

/-- A smaller bound and a smaller cost ask for less. -/
theorem SpendsBy.weaken {bound cost smaller cheaper : Nat} {parser : Parsing σ α}
    (spends : SpendsBy gauge bound cost parser) (bounded : smaller ≤ bound)
    (cheap : cheaper ≤ cost) : SpendsBy gauge smaller cheaper parser := by
  -- Less that is left is within the larger bound, and what is taken suffices for less.
  intro stream few
  exact spends.resume (by omega) (by omega)

/-- A parser with no room at all promises nothing. -/
theorem SpendsBy.zero (cost : Nat) (parser : Parsing σ α) : SpendsBy gauge 0 cost parser :=
  -- No stream has less than nothing left.
  fun _ few => absurd few (Nat.not_lt_zero _)

/-- Giving a value takes nothing. -/
theorem SpendsBy.pure {bound cost : Nat} {value : α} (free : cost = 0) :
    SpendsBy gauge bound cost (Pure.pure value : Parsing σ α) :=
  -- The stream is left as it was.
  fun _ _ => Nat.le_of_eq (congrArg _ free)

/-- Refusing a text because of a token is not giving up. -/
theorem SpendsBy.unexpected {bound cost : Nat} {expected : Expectation} {found : Token} :
    SpendsBy gauge bound cost (Parsing.unexpected expected found : Parsing σ α) :=
  -- A refusal is an outcome of its own.
  fun _ _ => gauge.unexpected _ _

/-- Refusing a text for an admitted reason is not giving up. -/
theorem SpendsBy.refused {bound cost : Nat} {error : ParseError} (admitted : gauge.admits error) :
    SpendsBy gauge bound cost (throw (.refused error) : Parsing σ α) :=
  -- A refusal is an outcome of its own.
  fun _ _ => admitted

/-- What the first parser takes, the second need no longer take or have room for. -/
theorem SpendsBy.bind {bound cost paid : Nat} {first : Parsing σ α} {second : α → Parsing σ β}
    (begins : SpendsBy gauge bound paid first)
    (ends : ∀ value, SpendsBy gauge (bound - paid) (cost - paid) (second value)) :
    SpendsBy gauge bound cost (first >>= second) := by
  -- The second parser starts with less that is left, by what the first has taken.
  intro stream few
  have one := begins stream few
  rw [bind_apply]
  split at one
  · -- What the first took and what the second takes add up to the cost.
    rename_i value after found
    simp only [found]
    exact (ends value).resume (by omega) (by omega)
  · -- A refusal by the first is one by both.
    rename_i found
    simp only [found]
    exact one
  · exact one.elim

/-- A value may be reshaped at no cost. -/
theorem SpendsBy.reshape {bound cost : Nat} {parser : Parsing σ α} {shape : α → β}
    (spends : SpendsBy gauge bound cost parser) :
    SpendsBy gauge bound cost (parser >>= fun value => Pure.pure (shape value)) :=
  -- Giving the value takes nothing, so the whole cost is the parser's own.
  spends.bind fun _ => SpendsBy.pure (Nat.sub_self _)

/-- Taking a token is one step, unless it is white space or the end of input. -/
theorem SpendsBy.next_bind {bound cost : Nat} {rest : Token → Parsing σ β}
    (some : ∀ token, token.isSolid = true → SpendsBy gauge (bound - 1) (cost - 1) (rest token))
    (last : ∀ token, token.isSolid = false → SpendsBy gauge bound cost (rest token)) :
    SpendsBy gauge bound cost (next >>= rest) := by
  -- A token that is text weighs one at least, and any other may weigh nothing.
  intro stream few
  rw [bind_apply]
  unfold next
  cases taken : TokenStream.next stream with
  | mk outcome after =>
    cases outcome with
    | error error => exact gauge.lexical error
    | ok token =>
      have step := gauge.left_next taken
      cases solid : token.isSolid with
      | true =>
        -- Text is less to read afterwards.
        have heavy := gauge.weight_pos solid
        exact (some token solid).resume (by omega) (by omega)
      | false =>
        -- Any other token may leave the bound as it was.
        exact (last token solid).resume (by omega) (by omega)

/-- Looking at a token takes nothing. -/
theorem SpendsBy.peek (bound : Nat) : SpendsBy gauge bound 0 (peek : Parsing σ Token) := by
  -- The token goes back, so what is left cannot have grown.
  intro stream few
  simp only [Parsing.peek, bind_apply, next, Parsing.push]
  cases taken : TokenStream.next stream with
  | mk outcome after =>
    cases outcome with
    | error error => exact gauge.lexical error
    | ok token =>
      have step := gauge.left_next taken
      have back := gauge.left_push after token
      simp only [Pure.pure, EStateM.pure]
      omega

/-- A token that means something is taken, and any other stays unread. -/
theorem SpendsBy.accept_bind {bound cost : Nat} {meaning? : Token → Option α}
    {rest : Option α → Parsing σ β}
    (real : ∀ token, token.isSolid = false → meaning? token = none)
    (met : ∀ meaning, SpendsBy gauge (bound - 1) (cost - 1) (rest (some meaning)))
    (missed : SpendsBy gauge bound cost (rest none)) :
    SpendsBy gauge bound cost (accept? meaning? >>= rest) := by
  -- A token with a meaning is text, so taking it counts.
  intro stream few
  simp only [Parsing.accept?, bind_apply, next]
  cases taken : TokenStream.next stream with
  | mk outcome after =>
    cases outcome with
    | error error => exact gauge.lexical error
    | ok token =>
      have step := gauge.left_next taken
      simp only
      cases meant : meaning? token with
      | none =>
        -- The token goes back, and the rest starts with no more than there was.
        have back := gauge.left_push after token
        exact missed.resume (by omega) (by omega)
      | some meaning =>
        -- White space and the end of input have no meaning, so the token weighs something.
        have solid : token.isSolid = true := by
          cases solid : token.isSolid with
          | false => simp [real token solid] at meant
          | true => rfl
        have heavy := gauge.weight_pos solid
        exact (met meaning).resume (by omega) (by omega)

/-- A token that passes a test is taken, and any other stays unread. -/
theorem SpendsBy.eat_bind {bound cost : Nat} {test : Token → Bool} {rest : Bool → Parsing σ β}
    (real : ∀ token, token.isSolid = false → test token = false)
    (met : SpendsBy gauge (bound - 1) (cost - 1) (rest true))
    (missed : SpendsBy gauge bound cost (rest false)) :
    SpendsBy gauge bound cost (eat test >>= rest) := by
  -- Passing the test is a meaning, and failing it is the lack of one.
  unfold eat
  rw [bind_assoc]
  refine SpendsBy.accept_bind (fun token thin => by simp [real token thin]) (fun token => ?_) ?_
  · simpa using met
  · simpa using missed

/-- White space and the end of input are no keyword. -/
theorem isKeyword_of_not_isSolid {token : Token} (word : Keyword) (thin : token.isSolid = false) :
    token.isKeyword word = false := by
  -- Each token has one category.
  rcases token.kind_of_not_isSolid thin with kind | kind <;> simp [Token.isKeyword, kind]

/-- White space and the end of input are no mark. -/
theorem isMark_of_not_isSolid {token : Token} (sign : Mark) (thin : token.isSolid = false) :
    token.isMark sign = false := by
  -- Each token has one category.
  rcases token.kind_of_not_isSolid thin with kind | kind <;>
    simp [Token.isMark, Token.isPunctuation, kind]

/-- A keyword that is next is taken, and any other token stays unread. -/
theorem SpendsBy.eatKeyword_bind {bound cost : Nat} {word : Keyword} {rest : Bool → Parsing σ β}
    (met : SpendsBy gauge (bound - 1) (cost - 1) (rest true))
    (missed : SpendsBy gauge bound cost (rest false)) :
    SpendsBy gauge bound cost (eatKeyword word >>= rest) :=
  -- Only text passes such a test.
  SpendsBy.eat_bind (fun _ => isKeyword_of_not_isSolid word) met missed

/-- A mark that is next is taken, and any other token stays unread. -/
theorem SpendsBy.eatMark_bind {bound cost : Nat} {sign : Mark} {rest : Bool → Parsing σ β}
    (met : SpendsBy gauge (bound - 1) (cost - 1) (rest true))
    (missed : SpendsBy gauge bound cost (rest false)) :
    SpendsBy gauge bound cost (eatMark sign >>= rest) :=
  -- Only text passes such a test.
  SpendsBy.eat_bind (fun _ => isMark_of_not_isSolid sign) met missed

/-- Taking a token or leaving it never adds to what is left. -/
theorem SpendsBy.accept? (bound : Nat) (meaning? : Token → Option α) :
    SpendsBy gauge bound 0 (Parsing.accept? meaning? : Parsing σ (Option α)) := by
  -- Either the token is gone or the stream is as before.
  intro stream few
  simp only [Parsing.accept?, bind_apply, next]
  cases taken : TokenStream.next stream with
  | mk outcome after =>
    cases outcome with
    | error error => exact gauge.lexical error
    | ok token =>
      have step := gauge.left_next taken
      have back := gauge.left_push after token
      simp only
      cases meaning? token with
      | none =>
        simp only [bind_apply, Parsing.push, Pure.pure, EStateM.pure]
        omega
      | some meaning =>
        simp only [Pure.pure, EStateM.pure]
        omega

/-- Skipping white space promises nothing, since there may be none and it may not count. -/
theorem SpendsBy.skipSpace (bound : Nat) :
    SpendsBy gauge bound 0 (skipSpace : Parsing σ Unit) :=
  -- Whether a token was taken is forgotten.
  (SpendsBy.accept? bound _).reshape.reshape

/-- A required token is one step, unless it may be white space. -/
theorem SpendsBy.require {bound : Nat} {expected : Expectation} {meaning? : Token → Option α}
    (real : ∀ token, token.isSolid = false → meaning? token = none) :
    SpendsBy gauge bound 1 (require expected meaning? : Parsing σ α) := by
  -- Without the meaning the text is refused, so success has taken the token.
  refine SpendsBy.next_bind (fun token _ => ?_) (fun token thin => ?_)
  · split
    · exact SpendsBy.pure (by omega)
    · exact SpendsBy.unexpected
  · simp only [real token thin]
    exact SpendsBy.unexpected

/-- A required token never adds to what is left. -/
theorem SpendsBy.require_free {bound : Nat} {expected : Expectation}
    {meaning? : Token → Option α} :
    SpendsBy gauge bound 0 (Parsing.require expected meaning? : Parsing σ α) := by
  -- The token is gone, whatever it was.
  refine SpendsBy.next_bind (fun token _ => ?_) (fun token _ => ?_)
  all_goals
    split
    · exact SpendsBy.pure rfl
    · exact SpendsBy.unexpected

/-- A required keyword is one step. -/
theorem SpendsBy.requireKeyword (bound : Nat) (word : Keyword) :
    SpendsBy gauge bound 1 (requireKeyword word : Parsing σ Unit) :=
  -- Anything that is not text is refused like any other wrong token.
  SpendsBy.require fun token thin => by simp [isKeyword_of_not_isSolid word thin]

/-- A required mark is one step. -/
theorem SpendsBy.requireMark (bound : Nat) (sign : Mark) :
    SpendsBy gauge bound 1 (requireMark sign : Parsing σ Unit) :=
  -- Anything that is not text is refused like any other wrong token.
  SpendsBy.require fun token thin => by simp [isMark_of_not_isSolid sign thin]

/-- White space and the end of input have no name. -/
theorem ident?_of_not_isSolid {token : Token} (thin : token.isSolid = false) :
    (if token.kind = .identifier then some token.text else none) = none := by
  -- Each token has one category.
  rcases token.kind_of_not_isSolid thin with kind | kind <;> simp [kind]

/-- A required name is one step. -/
theorem SpendsBy.requireIdentifier (bound : Nat) :
    SpendsBy gauge bound 1 (requireIdentifier : Parsing σ String) :=
  -- Only text has a name.
  SpendsBy.require fun _ => ident?_of_not_isSolid

/-- An optional part promises nothing, and has one token less to read after its keyword. -/
theorem SpendsBy.after? {bound : Nat} {word : Keyword} {item : Parsing σ α}
    (spends : SpendsBy gauge (bound - 1) 0 item) : SpendsBy gauge bound 0 (after? word item) := by
  -- With the keyword the item has one token less to read; without it nothing happens.
  refine SpendsBy.eatKeyword_bind ?_ (SpendsBy.pure (by omega))
  exact spends.reshape

/-- A closed part takes what it holds and its closing mark. -/
theorem SpendsBy.closedBy {bound cost : Nat} {sign : Mark} {item : Parsing σ α}
    (spends : SpendsBy gauge bound cost item) :
    SpendsBy gauge bound (cost + 1) (closedBy sign item) := by
  -- The closing mark is one token more than the item takes.
  refine spends.bind fun value => ?_
  refine (SpendsBy.requireMark _ sign).bind fun _ => ?_
  exact SpendsBy.pure (by omega)

/-- One item of a list, and whether a comma announces another. -/
def itemLap (item : Parsing σ α) : Parsing σ (α × Bool) := do
  -- This is what one round of reading a list takes.
  let value ← item
  let more ← eatMark .comma
  return (value, more)

/-- Reading a list goes round once for each item. -/
theorem separated_succ (item : Parsing σ α) (most : Nat) :
    separated item (most + 1) = itemLap item >>= fun lap =>
      if lap.2 then separated item most >>= fun others => Pure.pure (lap.1 :: others)
      else Pure.pure [lap.1] := by
  -- The comma is taken with the item before it.
  simp only [separated, itemLap, bind_assoc, pure_bind]

/-- An item takes what it takes without the comma, which may be absent. -/
theorem SpendsBy.itemLap {bound cost : Nat} {item : Parsing σ α}
    (spends : SpendsBy gauge bound cost item) : SpendsBy gauge bound cost (itemLap item) := by
  -- The comma is extra.
  refine spends.bind fun value => ?_
  exact SpendsBy.eatMark_bind (SpendsBy.pure (by omega)) (SpendsBy.pure (by omega))

/-- A list whose items each take a token never outgrows a bound as large as what is left. -/
theorem SpendsBy.separated {bound most : Nat} {item : Parsing σ α}
    (spends : SpendsBy gauge bound 1 item) (room : bound ≤ most) :
    SpendsBy gauge bound 1 (separated item most) := by
  -- Each further item is bought by the one before it.
  induction most generalizing bound with
  | zero =>
    obtain rfl : bound = 0 := by omega
    exact SpendsBy.zero _ _
  | succ most ih =>
    -- The first item has taken a token, so the others have a smaller bound on both sides.
    rw [separated_succ]
    refine spends.itemLap.bind fun lap => ?_
    split
    · refine (ih (spends.weaken (by omega) (Nat.le_refl _)) (by omega)).bind fun others => ?_
      exact SpendsBy.pure (by omega)
    · exact SpendsBy.pure (by omega)

end Parsing

end SelectSql
