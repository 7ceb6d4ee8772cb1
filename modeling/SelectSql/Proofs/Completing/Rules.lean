import SelectSql.Proofs.Completing.Filler

/-!
Rules for completing what parsers have read. A parser begun on fillers finishes with those that are
its own, and one that starves inside a text is completed, if what comes after it can be.
-/

namespace SelectSql

open Parsing (bind_apply)

/-- A parser for every bound on nesting. -/
abbrev Family (α : Type) := Nat → Parsing Tape α

variable {α β γ : Type}

/-- A parser begun on fillers of its own takes these, and what comes after it finds the others;
white space stands in front as in one of `leads`, and is left as in one of `trails`. -/
def Finishes (own : List Filler) (leads : List Bool) (parser : Parsing Tape α)
    (follow : List (Option Filler)) (trails : List Bool) : Prop :=
  -- The others begin with one of those that may follow, or there are none.
  ∀ (β : Type) (next? : α → Parsing Tape β) (fillers : List Filler), fillers.head? ∈ follow →
    (∀ value, ∀ spaced ∈ trails, Accepts (next? value) (padding spaced ++ spread fillers)) →
    ∀ spaced ∈ leads, Accepts (parser >>= next?) (padding spaced ++ spread (own ++ fillers))

/-- Wherever a parser starves inside a text, there are fillers that its family accepts after it. -/
def Completable (starving : Parsing Tape β) (parser : Family β) : Prop :=
  -- The fillers are the same for all bounds on nesting, so a bound may be chosen to suit them.
  ∀ token tokens, Starves starving (token :: tokens) →
    ∃ fillers, ∀ bound, Accepts (parser bound) (completed false fillers (token :: tokens))

/-- What comes after a parser may be begun on fillers, and is completed wherever it starves. -/
structure Concludes (fillers : List Filler) (starving : α → Parsing Tape β) (parser : α → Family β)
    (follow : List (Option Filler)) (trails : List Bool) : Prop where
  /-- The first filler is one that may follow. -/
  head : fillers.head? ∈ follow
  /-- The fillers are accepted, with white space in front as it may be left. -/
  accepts : ∀ value bound, ∀ spaced ∈ trails,
    Accepts (parser value bound) (padding spaced ++ spread fillers)
  /-- A text is completed wherever it ends. -/
  completable : ∀ value, Completable (starving value) (parser value)

/-- A parser that starves is completed, if what comes after it is and can be begun on fillers. -/
def Completes (starving : Parsing Tape α) (parser : Family α) (follow : List (Option Filler))
    (trails : List Bool) : Prop :=
  ∀ (β : Type) (goes : α → Parsing Tape β) (ends : α → Family β) (fillers : List Filler),
    Concludes fillers goes ends follow trails →
    Completable (starving >>= goes) fun bound => parser bound >>= fun value => ends value bound

/-- A parser that can be begun on fillers of its own, and completed wherever it starves. -/
structure Steady (own : List Filler) (leads : List Bool) (starving : Parsing Tape α)
    (parser : Family α) (follow : List (Option Filler)) (trails : List Bool) : Prop where
  /-- The parser finishes with its own fillers, whatever the bound on nesting. -/
  finishes : ∀ bound, Finishes own leads (parser bound) follow trails
  /-- The parser is completed wherever it starves. -/
  completes : Completes starving parser follow trails

/-- The first of some fillers, or those that may follow if there are none. -/
def heads (own : List Filler) (follow : List (Option Filler)) : List (Option Filler) :=
  -- A parser without fillers of its own leaves its place to what comes next.
  match own with
  | [] => follow
  | filler :: _ => [some filler]

/-- The tokens that a parser begun on fillers may find first. -/
def fronts (own : List Filler) (leads : List Bool) (follow : List (Option Filler)) : List Token :=
  -- There are few of them, so what a parser does about each can be evaluated.
  leads.flatMap fun spaced => if spaced then [.blank] else (heads own follow).map foremost

/-- White space in front or none. -/
def either : List Bool :=
  [false, true]

variable {own others fillers : List Filler} {leads slack trails : List Bool} {spaced : Bool}
  {follow middle : List (Option Filler)} {tokens : List Token} {starving : Parsing Tape α}
  {parser : Family α} {then? : α → Parsing Tape β} {next? : α → Family β}

section Fronts

/-- White space stands in front or it does not. -/
theorem mem_either (spaced : Bool) : spaced ∈ either := by
  cases spaced <;> decide

/-- The first of two parts is the first of the own ones, or else one of those that may follow. -/
theorem head?_append_mem_heads (member : fillers.head? ∈ follow) :
    (own ++ fillers).head? ∈ heads own follow := by
  cases own with
  | nil => exact member
  | cons filler own => exact List.mem_singleton_self _

/-- Fillers begin with one of the tokens that may be found first. -/
theorem exists_mem_fronts (own : List Filler) (member : fillers.head? ∈ follow)
    (lead : spaced ∈ leads) : ∃ token ∈ fronts own leads follow, ∃ rest,
      feed (padding spaced ++ spread (own ++ fillers)) = ⟨token :: rest, .ok 0⟩ := by
  -- White space in front comes first itself; else it is the first filler, or the end of input.
  cases spaced with
  | true =>
    exact ⟨.blank, List.mem_flatMap.2 ⟨true, lead, List.mem_singleton_self _⟩, _, rfl⟩
  | false =>
    obtain ⟨rest, begins⟩ := exists_feed_spread (own ++ fillers)
    have first : foremost (own ++ fillers).head? ∈ (heads own follow).map foremost :=
      List.mem_map_of_mem (head?_append_mem_heads member)
    exact ⟨_, List.mem_flatMap.2 ⟨false, lead, first⟩, rest, begins⟩

end Fronts

section Transfer

variable {first second : Parsing Tape α} {more : List Token}

/-- Tokens are accepted by a parser whose run goes on as one that accepts. -/
theorem Accepts.of_eq (accepts : Accepts second more)
    (same : first (feed tokens) = second (feed more)) : Accepts first tokens := by
  -- To be accepted is a matter of the run alone.
  unfold Accepts
  rw [same]
  exact accepts

/-- Fillers are accepted by a parser that takes the first and goes on as one that accepts others. -/
theorem Accepts.of_taken {filler : Filler}
    (accepts : Accepts second (padding true ++ spread fillers))
    (taken : ∀ tokens ending, first ⟨filler.token :: tokens, ending⟩ = second ⟨tokens, ending⟩) :
    Accepts first (padding false ++ spread (filler :: fillers)) :=
  accepts.of_eq (taken _ _)

/-- A parser starves on tokens if its run goes on as one that does. -/
theorem Starves.of_eq (starves : Starves first tokens)
    (same : ∀ fault, first ⟨tokens, .error fault⟩ = second ⟨more, .error fault⟩) :
    Starves second more := by
  obtain ⟨fault, after, run⟩ := starves
  exact ⟨fault, after, (same fault).symm.trans run⟩

end Transfer

namespace Finishes

variable {parser : Parsing Tape α} {next? : α → Parsing Tape β}

/-- Giving a value leaves all fillers. -/
theorem pure {value : α} (within : leads ⊆ trails) :
    Finishes [] leads (Pure.pure value) follow trails := by
  intro γ ends fillers member accepts spaced lead
  rw [pure_bind]
  exact accepts value spaced (within lead)

/-- Giving up is not refusing. -/
theorem exhausted : Finishes own leads (Parsing.exhausted : Parsing Tape α) follow trails := by
  -- Accepting rules out a refusal, and giving up is none.
  rintro γ ends fillers member accepts spaced lead error after ⟨⟩

/-- Giving a value at the end leaves all fillers to what comes next. -/
theorem reshape {shape : α → β} (finishes : Finishes own leads parser follow trails) :
    Finishes own leads (parser >>= fun value => Pure.pure (shape value)) follow trails := by
  intro γ ends fillers member accepts
  simp only [bind_assoc, pure_bind]
  exact finishes γ _ fillers member fun value => accepts (shape value)

/-- The second of two parsers is begun on its own fillers after those of the first. -/
theorem bind (first : Finishes own leads parser middle slack)
    (within : heads others follow ⊆ middle)
    (second : ∀ value, Finishes others slack (next? value) follow trails) :
    Finishes (own ++ others) leads (parser >>= next?) follow trails := by
  intro γ ends fillers member accepts spaced lead
  rw [bind_assoc, List.append_assoc]
  -- To the first parser the fillers of the second are among those that follow.
  refine first γ _ (others ++ fillers) (within (head?_append_mem_heads member)) ?_ spaced lead
  exact fun value => second value γ ends fillers member accepts

/-- White space in front is skipped. -/
theorem skipSpace_bind {next? : Unit → Parsing Tape β}
    (rest : Finishes own [false] (next? ()) follow trails) :
    Finishes own leads (Parsing.skipSpace >>= next?) follow trails := by
  intro γ ends fillers member accepts spaced _
  have accepted := rest γ ends fillers member accepts false (List.mem_singleton_self _)
  refine accepted.of_eq ?_
  rw [bind_assoc, bind_apply]
  -- With white space in front there is a token to be taken, and without it there is none.
  cases spaced with
  | true => rfl
  | false =>
    -- No filler is white space, and the end of input is none either.
    obtain ⟨rest, begins⟩ := exists_feed_spread (own ++ fillers)
    have apart : ∀ next : Option Filler, (foremost next).isSpace = false := by
      rintro (_ | _ | _ | ⟨_ | _⟩) <;> rfl
    rw [show padding false ++ spread (own ++ fillers) = spread (own ++ fillers) from rfl, begins,
      Parsing.skipSpace_cons, apart]
    rfl

/-- A token that must come first is found as a filler. -/
theorem require_bind {filler : Filler} {expected : Expectation} {meaning? : Token → Option α}
    (means : (meaning? filler.token).isSome)
    (rest : ∀ value, Finishes own either (next? value) follow trails) :
    Finishes (filler :: own) [false] (Parsing.require expected meaning? >>= next?) follow
      trails := by
  intro γ ends fillers member accepts spaced lead
  obtain rfl := List.mem_singleton.1 lead
  -- Once the first filler is taken, white space stands in front of the others.
  obtain ⟨value, meant⟩ := Option.isSome_iff_exists.1 means
  refine (rest value γ ends fillers member accepts true (mem_either true)).of_taken ?_
  intro tokens ending
  rw [bind_assoc, bind_apply, Parsing.require_cons, meant]

/-- A token that would mean something does not come first, so nothing is taken. -/
theorem accept_bind {meaning? : Token → Option α} {next? : Option α → Parsing Tape β}
    (missed : ∀ token ∈ fronts own leads follow, meaning? token = none)
    (rest : Finishes own leads (next? none) follow trails) :
    Finishes own leads (Parsing.accept? meaning? >>= next?) follow trails := by
  intro γ ends fillers member accepts spaced lead
  refine (rest γ ends fillers member accepts spaced lead).of_eq ?_
  -- Whatever comes first is put back, and the run goes on from the same fillers.
  obtain ⟨token, front, others, begins⟩ := exists_mem_fronts own member lead
  rw [bind_assoc, bind_apply, begins, Parsing.accept?_cons, missed token front]

/-- A token that means something is found as a filler. -/
theorem accept_filler_bind {filler : Filler} {meaning? : Token → Option α}
    {next? : Option α → Parsing Tape β} (means : (meaning? filler.token).isSome)
    (rest : ∀ value, Finishes own either (next? (some value)) follow trails) :
    Finishes (filler :: own) [false] (Parsing.accept? meaning? >>= next?) follow trails := by
  intro γ ends fillers member accepts spaced lead
  obtain rfl := List.mem_singleton.1 lead
  obtain ⟨value, meant⟩ := Option.isSome_iff_exists.1 means
  refine (rest value γ ends fillers member accepts true (mem_either true)).of_taken ?_
  intro tokens ending
  rw [bind_assoc, bind_apply, Parsing.accept?_cons, meant]

/-- A token that would pass a test does not come first, so nothing is taken. -/
theorem eat_bind {test : Token → Bool} {next? : Bool → Parsing Tape β}
    (missed : ∀ token ∈ fronts own leads follow, test token = false)
    (rest : Finishes own leads (next? false) follow trails) :
    Finishes own leads (Parsing.eat test >>= next?) follow trails := by
  unfold Parsing.eat
  simp only [bind_assoc, pure_bind]
  -- A token that fails the test has no meaning.
  refine accept_bind (fun token front => ?_) rest
  rw [missed token front]
  rfl

/-- What is looked at comes first and stays. -/
theorem peek_bind {next? : Token → Parsing Tape β}
    (rest : ∀ token ∈ fronts own leads follow, Finishes own leads (next? token) follow trails) :
    Finishes own leads (Parsing.peek >>= next?) follow trails := by
  intro γ ends fillers member accepts spaced lead
  obtain ⟨token, front, others, begins⟩ := exists_mem_fronts own member lead
  refine (rest token front γ ends fillers member accepts spaced lead).of_eq ?_
  rw [bind_assoc, bind_apply, begins]
  rfl

/-- Whatever is taken is a filler. -/
theorem next_bind {filler : Filler} {next? : Token → Parsing Tape β}
    (rest : Finishes own either (next? filler.token) follow trails) :
    Finishes (filler :: own) [false] (Parsing.next >>= next?) follow trails := by
  intro γ ends fillers member accepts spaced lead
  obtain rfl := List.mem_singleton.1 lead
  refine (rest γ ends fillers member accepts true (mem_either true)).of_taken ?_
  intro tokens ending
  rw [bind_assoc, Parsing.next_bind_cons]

end Finishes

section Growing

variable {goes : α → Parsing Tape β} {ends : α → Family β} {whole : Parsing Tape β}
  {family : Family β} {token : Token}

/-- A parser that starves on some tokens, or before the first of them, is completed after them. -/
theorem Steady.grow (steady : Steady own leads starving parser follow trails)
    (lead : spaced ∈ leads) (concludes : Concludes fillers goes ends follow trails)
    (starves : Starves (starving >>= goes) tokens) :
    ∃ more, ∀ bound, Accepts (parser bound >>= fun value => ends value bound)
      (completed spaced more tokens) := by
  -- Without tokens the parser has not begun, and is begun on fillers.
  cases tokens with
  | nil =>
    refine ⟨own ++ fillers, fun bound => ?_⟩
    exact steady.finishes bound β _ fillers concludes.head
      (fun value => concludes.accepts value bound) spaced lead
  | cons token tokens => exact steady.completes β goes ends fillers concludes token tokens starves

/-- A parser that takes a token and goes on as another is completed as that one is. -/
theorem Steady.grow_taken (steady : Steady own [token.apart] starving parser follow trails)
    (concludes : Concludes fillers goes ends follow trails)
    (starves : Starves whole (token :: tokens))
    (taken : ∀ tokens ending,
      whole ⟨token :: tokens, ending⟩ = (starving >>= goes) ⟨tokens, ending⟩)
    (grown : ∀ bound tokens ending, family bound ⟨token :: tokens, ending⟩ =
      (parser bound >>= fun value => ends value bound) ⟨tokens, ending⟩) :
    ∃ more, ∀ bound, Accepts (family bound) (completed false more (token :: tokens)) := by
  -- The parser that goes on is begun right after the token, so white space may have to set it
  -- apart.
  obtain ⟨more, accepts⟩ := steady.grow (List.mem_singleton_self _) concludes
    (starves.of_eq fun fault => taken tokens (.error fault))
  exact ⟨more, fun bound => (accepts bound).of_eq (grown bound _ _)⟩

/-- A parser that leaves a token in place and goes on as another is completed as that one is. -/
theorem Completes.grow_left (completes : Completes starving parser follow trails)
    (concludes : Concludes fillers goes ends follow trails)
    (starves : Starves whole (token :: tokens))
    (left : ∀ tokens ending,
      whole ⟨token :: tokens, ending⟩ = (starving >>= goes) ⟨token :: tokens, ending⟩)
    (grown : ∀ bound tokens ending, family bound ⟨token :: tokens, ending⟩ =
      (parser bound >>= fun value => ends value bound) ⟨token :: tokens, ending⟩) :
    ∃ more, ∀ bound, Accepts (family bound) (completed false more (token :: tokens)) := by
  -- The token is still there for the parser that goes on.
  obtain ⟨more, accepts⟩ := completes β goes ends fillers concludes token tokens
    (starves.of_eq fun fault => left tokens (.error fault))
  exact ⟨more, fun bound => (accepts bound).of_eq (grown bound _ _)⟩

end Growing

namespace Completes

/-- Giving a value does not starve. -/
theorem pure {value : α} :
    Completes (Pure.pure value) (fun _ => Pure.pure value) follow trails := by
  intro γ goes ends fillers concludes
  simp only [pure_bind]
  exact concludes.completable value

/-- Giving up does not starve. -/
theorem exhausted : Completes Parsing.exhausted parser follow trails := by
  rintro γ goes ends fillers concludes token tokens ⟨fault, after, ⟨⟩⟩

/-- Refusing a token does not starve. -/
theorem unexpected {expected : Expectation} {found : Token} :
    Completes (Parsing.unexpected expected found) parser follow trails := by
  -- A refusal is no lack of tokens.
  rintro γ goes ends fillers concludes token tokens ⟨fault, after, ⟨⟩⟩

/-- Two parsers in a row are completed in the first or in the second. -/
theorem bind (first : Completes starving parser middle slack)
    (within : heads others follow ⊆ middle)
    (second : ∀ value, Steady others slack (then? value) (next? value) follow trails) :
    Completes (starving >>= then?) (fun bound => parser bound >>= fun value => next? value bound)
      follow trails := by
  intro γ goes ends fillers concludes
  simp only [bind_assoc]
  refine first γ _ (fun value bound => next? value bound >>= fun given => ends given bound)
    (others ++ fillers) ⟨within (head?_append_mem_heads concludes.head), ?_, ?_⟩
  · intro value bound
    exact (second value).finishes bound γ _ fillers concludes.head
      fun given => concludes.accepts given bound
  · exact fun value => (second value).completes γ goes ends fillers concludes

/-- What follows white space is completed, also right after it. -/
theorem skipSpace_bind {then? : Unit → Parsing Tape β} {next? : Unit → Family β}
    (rest : Steady own [false] (then? ()) (next? ()) follow trails) :
    Completes (Parsing.skipSpace >>= then?) (fun bound => Parsing.skipSpace >>= fun value =>
      next? value bound) follow trails := by
  intro γ goes ends fillers concludes token tokens starves
  cases space : token.isSpace with
  | true =>
    rw [← Token.apart_of_isSpace space] at rest
    refine rest.grow_taken concludes starves ?_ ?_ <;> intros <;>
      rw [bind_assoc, bind_apply, Parsing.skipSpace_cons, space] <;> rfl
  | false =>
    refine grow_left rest.completes concludes starves ?_ ?_ <;> intros <;>
      rw [bind_assoc, bind_apply, Parsing.skipSpace_cons, space] <;> rfl

/-- What follows a token that must come is completed, also right after it. -/
theorem require_bind {expected : Expectation} {meaning? : Token → Option α}
    (rest : ∀ token value, meaning? token = some value →
      ∃ own, Steady own [token.apart] (then? value) (next? value) follow trails) :
    Completes (Parsing.require expected meaning? >>= then?)
      (fun bound => Parsing.require expected meaning? >>= fun value => next? value bound)
      follow trails := by
  intro γ goes ends fillers concludes token tokens starves
  cases meant : meaning? token with
  | none =>
    obtain ⟨fault, after, run⟩ := starves
    rw [bind_assoc, bind_apply, Parsing.require_cons, meant] at run
    cases run
  | some value =>
    obtain ⟨own, rest⟩ := rest token value meant
    refine rest.grow_taken concludes starves ?_ ?_ <;> intros <;>
      rw [bind_assoc, bind_apply, Parsing.require_cons, meant]

/-- Both what follows a token and what comes instead of it are completed. -/
theorem accept_bind {meaning? : Token → Option α} {then? : Option α → Parsing Tape β}
    {next? : Option α → Family β}
    (met : ∀ token value, meaning? token = some value →
      ∃ own, Steady own [token.apart] (then? (some value)) (next? (some value)) follow trails)
    (missed : Completes (then? none) (next? none) follow trails) :
    Completes (Parsing.accept? meaning? >>= then?)
      (fun bound => Parsing.accept? meaning? >>= fun value => next? value bound)
      follow trails := by
  intro γ goes ends fillers concludes token tokens starves
  cases meant : meaning? token with
  | none =>
    refine grow_left missed concludes starves ?_ ?_ <;> intros <;>
      rw [bind_assoc, bind_apply, Parsing.accept?_cons, meant]
  | some value =>
    obtain ⟨own, rest⟩ := met token value meant
    refine rest.grow_taken concludes starves ?_ ?_ <;> intros <;>
      rw [bind_assoc, bind_apply, Parsing.accept?_cons, meant]

/-- What is done about a token that is looked at is completed. -/
theorem peek_bind {then? : Token → Parsing Tape β} {next? : Token → Family β}
    (rest : ∀ token, Completes (then? token) (next? token) follow trails) :
    Completes (Parsing.peek >>= then?) (fun bound => Parsing.peek >>= fun value =>
      next? value bound) follow trails := by
  intro γ goes ends fillers concludes token tokens starves
  refine grow_left (rest token) concludes starves ?_ ?_ <;> intros <;>
    rw [bind_assoc, bind_apply] <;> rfl

/-- What is done about a token that is taken is completed, unless the token is refused. -/
theorem next_bind {then? : Token → Parsing Tape β} {next? : Token → Family β}
    (rest : ∀ token, (∃ expected, then? token = Parsing.unexpected expected token) ∨
      ∃ own, Steady own [token.apart] (then? token) (next? token) follow trails) :
    Completes (Parsing.next >>= then?) (fun bound => Parsing.next >>= fun token =>
      next? token bound) follow trails := by
  intro γ goes ends fillers concludes token tokens starves
  rcases rest token with ⟨expected, refused⟩ | ⟨own, rest⟩
  · obtain ⟨fault, after, run⟩ := starves
    rw [bind_assoc, Parsing.next_bind_cons, refused] at run
    cases run
  · refine rest.grow_taken concludes starves ?_ ?_ <;> intros <;>
      rw [bind_assoc, Parsing.next_bind_cons]

end Completes

end SelectSql
