import SelectSql.Proofs.Completing.Rules

/-!
Both halves of completing at once. For every step that rules of the grammar are made of there is one
rule that says on which fillers the step is begun and how it is completed.
-/

namespace SelectSql

variable {α β : Type} {own others fillers : List Filler} {leads slack trails : List Bool}
  {follow middle : List (Option Filler)} {starving : Parsing Tape α} {parser : Family α}
  {then? : α → Parsing Tape β} {next? : α → Family β}

namespace Steady

/-- A parser may be begun in fewer ways, before fewer fillers, and may leave more behind. -/
theorem mono {before after : List Bool} (steady : Steady own before starving parser middle after)
    (lead : leads ⊆ before) (within : follow ⊆ middle) (trail : after ⊆ trails) :
    Steady own leads starving parser follow trails where
  finishes bound β ends fillers member accepts spaced spacing :=
    steady.finishes bound β ends fillers (within member)
      (fun value spaced left => accepts value spaced (trail left)) spaced (lead spacing)
  completes β goes ends fillers concludes :=
    steady.completes β goes ends fillers ⟨within concludes.head,
      fun value bound spaced left => concludes.accepts value bound spaced (trail left),
      concludes.completable⟩

/-- White space in front is allowed, but need not be possible. -/
theorem wide (steady : Steady own either starving parser follow trails) :
    Steady own leads starving parser follow trails :=
  steady.mono (fun spaced _ => mem_either spaced) (List.Subset.refl _) (List.Subset.refl _)

/-- A parser may give up for some bounds on nesting. -/
theorem bounded {other : Family α} (steady : Steady own leads starving other follow trails)
    (gives : ∀ bound, parser bound = Parsing.exhausted ∨ parser bound = other bound) :
    Steady own leads starving parser follow trails where
  finishes bound := by
    -- Where the parser gives up it refuses nothing, and elsewhere it is the other one.
    rcases gives bound with same | same
    · rw [same]
      exact .exhausted
    · rw [same]
      exact steady.finishes bound
  completes := by
    intro β goes ends fillers concludes token tokens starves
    -- The fillers do not depend on the bound, so those of the other parser serve.
    obtain ⟨more, accepts⟩ := steady.completes β goes ends fillers concludes token tokens starves
    refine ⟨more, fun bound => ?_⟩
    show Accepts (parser bound >>= fun value => ends value bound) _
    rcases gives bound with same | same
    · rw [same]
      rintro error after ⟨⟩
    · rw [same]
      exact accepts bound

/-- Giving a value leaves all fillers, and does not starve. -/
theorem pure {value : α} (within : leads ⊆ trails) :
    Steady [] leads (Pure.pure value) (fun _ => Pure.pure value) follow trails :=
  ⟨fun _ => .pure within, .pure⟩

/-- Two parsers in a row are begun on the fillers of both. -/
theorem bind (first : Steady own leads starving parser middle slack)
    (within : heads others follow ⊆ middle)
    (second : ∀ value, Steady others slack (then? value) (next? value) follow trails) :
    Steady (own ++ others) leads (starving >>= then?)
      (fun bound => parser bound >>= fun value => next? value bound) follow trails :=
  -- The second parser is begun on its fillers, or completed if the text goes on into it.
  ⟨fun bound => (first.finishes bound).bind within fun value => (second value).finishes bound,
    first.completes.bind within second⟩

/-- A value may be reshaped once it is found. -/
theorem reshape {shape : α → β} (steady : Steady own leads starving parser follow trails) :
    Steady own leads (starving >>= fun value => Pure.pure (shape value))
      (fun bound => parser bound >>= fun value => Pure.pure (shape value)) follow trails :=
  -- A value that is given neither takes nor needs a filler.
  ⟨fun bound => (steady.finishes bound).reshape,
    steady.completes.bind (List.Subset.refl _) fun _ => .pure (List.Subset.refl _)⟩

/-- White space in front is skipped, if there is any. -/
theorem skipSpace_bind {then? : Unit → Parsing Tape β} {next? : Unit → Family β}
    (rest : Steady own [false] (then? ()) (next? ()) follow trails) :
    Steady own leads (Parsing.skipSpace >>= then?)
      (fun bound => Parsing.skipSpace >>= fun value => next? value bound) follow trails :=
  ⟨fun bound => .skipSpace_bind (rest.finishes bound), .skipSpace_bind rest⟩

/-- White space may be skipped at the end. -/
theorem skipSpace : Steady [] leads Parsing.skipSpace (fun _ => Parsing.skipSpace) follow
    [false] := by
  -- The rule is stated for what comes after it, and here that is nothing.
  suffices skips : Steady [] leads (Parsing.skipSpace >>= Pure.pure)
      (fun _ => Parsing.skipSpace >>= Pure.pure) follow [false] by
    simpa only [bind_pure] using skips
  exact skipSpace_bind (.pure (List.Subset.refl _))

/-- A token that must come is a filler. -/
theorem require_bind {filler : Filler} {expected : Expectation} {meaning? : Token → Option α}
    (means : (meaning? filler.token).isSome)
    (rest : ∀ value, Steady own either (then? value) (next? value) follow trails) :
    Steady (filler :: own) [false] (Parsing.require expected meaning? >>= then?)
      (fun bound => Parsing.require expected meaning? >>= fun value => next? value bound)
      follow trails :=
  -- The text may have any token of this meaning, and without it there is the filler.
  ⟨fun bound => .require_bind means fun value => (rest value).finishes bound,
    .require_bind fun _ value _ => ⟨own, (rest value).wide⟩⟩

/-- The white space that must come is there, if something must keep words apart. -/
theorem space_bind {expected : Expectation} {value : α}
    (rest : Steady own [false] (then? value) (next? value) follow trails) :
    Steady own [true]
      (Parsing.require expected (fun token => if token.isSpace then some value else none) >>= then?)
      (fun bound => Parsing.require expected
        (fun token => if token.isSpace then some value else none) >>= fun value =>
          next? value bound)
      follow trails where
  finishes bound β ends fillers member accepts spaced lead := by
    obtain rfl := List.mem_singleton.1 lead
    -- The white space in front of the fillers is the token that must come.
    refine (rest.finishes bound β ends fillers member accepts false ?_).of_eq ?_
    · exact List.mem_singleton_self _
    · rw [bind_assoc, Parsing.bind_apply]
      rfl
  -- In a text the token that is taken is white space, after which nothing is set apart.
  completes := .require_bind fun token given meant => by
    cases space : token.isSpace with
    | true =>
      rw [space] at meant
      obtain rfl := Option.some.inj meant
      rw [Token.apart_of_isSpace space]
      exact ⟨own, rest⟩
    | false => simp [space] at meant

/-- A token that may come is no filler, and what comes instead of it is begun on fillers. -/
theorem accept_bind {meaning? : Token → Option α} {then? : Option α → Parsing Tape β}
    {next? : Option α → Family β}
    (missed : ∀ token ∈ fronts own leads follow, meaning? token = none)
    (met : ∀ token value, meaning? token = some value →
      ∃ own, Steady own [token.apart] (then? (some value)) (next? (some value)) follow trails)
    (rest : Steady own leads (then? none) (next? none) follow trails) :
    Steady own leads (Parsing.accept? meaning? >>= then?)
      (fun bound => Parsing.accept? meaning? >>= fun value => next? value bound) follow trails :=
  -- Among fillers the token is missing, and in a text it may be there.
  ⟨fun bound => .accept_bind missed (rest.finishes bound), .accept_bind met rest.completes⟩

/-- A token that may come is a filler, since without it the text is refused. -/
theorem accept_filler_bind {filler : Filler} {meaning? : Token → Option α}
    {then? : Option α → Parsing Tape β} {next? : Option α → Family β}
    (means : (meaning? filler.token).isSome)
    (met : ∀ value, Steady own either (then? (some value)) (next? (some value)) follow trails)
    (refuses : Completes (then? none) (next? none) follow trails) :
    Steady (filler :: own) [false] (Parsing.accept? meaning? >>= then?)
      (fun bound => Parsing.accept? meaning? >>= fun value => next? value bound) follow trails :=
  -- What is done without the token only has to be completed, never begun.
  ⟨fun bound => .accept_filler_bind means fun value => (met value).finishes bound,
    .accept_bind (fun _ value _ => ⟨own, (met value).wide⟩) refuses⟩

/-- A token that would pass a test is no filler, and without it the parser is begun on fillers. -/
theorem eat_bind {test : Token → Bool} {then? : Bool → Parsing Tape β} {next? : Bool → Family β}
    (missed : ∀ token ∈ fronts own leads follow, test token = false)
    (met : ∀ token, test token = true →
      ∃ own, Steady own [token.apart] (then? true) (next? true) follow trails)
    (rest : Steady own leads (then? false) (next? false) follow trails) :
    Steady own leads (Parsing.eat test >>= then?)
      (fun bound => Parsing.eat test >>= fun taken => next? taken bound) follow trails := by
  -- To eat a token is to accept it for passing the test.
  unfold Parsing.eat
  simp only [bind_assoc, pure_bind]
  refine accept_bind ?_ ?_ rest
  · intro token front
    rw [missed token front]
    rfl
  · intro token value passes
    cases tested : test token with
    | true => exact met token tested
    | false => simp [tested] at passes

/-- With a token that may come or without it, what follows is begun on the same fillers. -/
theorem accept_optional_bind {meaning? : Token → Option α} {then? : Option α → Parsing Tape β}
    {next? : Option α → Family β}
    (missed : ∀ token ∈ fronts own leads follow, meaning? token = none)
    (rest : ∀ taken, Steady own either (then? taken) (next? taken) follow trails) :
    Steady own leads (Parsing.accept? meaning? >>= then?)
      (fun bound => Parsing.accept? meaning? >>= fun value => next? value bound) follow trails :=
  accept_bind missed (fun _ value _ => ⟨own, (rest (some value)).wide⟩) (rest none).wide

/-- With a token that may pass a test or without it, what follows is begun on the same fillers. -/
theorem eat_optional_bind {test : Token → Bool} {then? : Bool → Parsing Tape β}
    {next? : Bool → Family β}
    (missed : ∀ token ∈ fronts own leads follow, test token = false)
    (rest : ∀ taken, Steady own either (then? taken) (next? taken) follow trails) :
    Steady own leads (Parsing.eat test >>= then?)
      (fun bound => Parsing.eat test >>= fun taken => next? taken bound) follow trails :=
  -- The fillers after the token are those without it, so they may stand apart or not.
  eat_bind missed (fun _ _ => ⟨own, (rest true).wide⟩) (rest false).wide

/-- A token that is looked at stays. -/
theorem peek_bind {then? : Token → Parsing Tape β} {next? : Token → Family β}
    (begins : ∀ token ∈ fronts own leads follow, ∀ bound,
      Finishes own leads (next? token bound) follow trails)
    (rest : ∀ token, Completes (then? token) (next? token) follow trails) :
    Steady own leads (Parsing.peek >>= then?)
      (fun bound => Parsing.peek >>= fun token => next? token bound) follow trails :=
  ⟨fun bound => .peek_bind fun token front => begins token front bound, .peek_bind rest⟩

/-- Whatever is taken is a filler. -/
theorem next_bind {filler : Filler} {then? : Token → Parsing Tape β} {next? : Token → Family β}
    (begins : ∀ bound, Finishes own either (next? filler.token bound) follow trails)
    (rest : ∀ token, (∃ expected, then? token = Parsing.unexpected expected token) ∨
      ∃ own, Steady own [token.apart] (then? token) (next? token) follow trails) :
    Steady (filler :: own) [false] (Parsing.next >>= then?)
      (fun bound => Parsing.next >>= fun token => next? token bound) follow trails :=
  ⟨fun bound => .next_bind (begins bound), .next_bind rest⟩

/-- An optional part is left out, and what comes after it is begun on fillers. -/
theorem after?_bind {word : Keyword} {then? : Option α → Parsing Tape β}
    {next? : Option α → Family β} (item : Steady own either starving parser middle leads)
    (within : heads others follow ⊆ middle)
    (missed : ∀ token ∈ fronts others leads follow, token.isKeyword word = false)
    (rest : ∀ value, Steady others leads (then? value) (next? value) follow trails) :
    Steady others leads (Parsing.after? word starving >>= then?)
      (fun bound => Parsing.after? word (parser bound) >>= fun value => next? value bound)
      follow trails := by
  -- Left out, the part has no fillers. In a text that has its keyword, the part is begun on its
  -- own.
  have optional : Steady [] leads (Parsing.after? word starving)
      (fun bound => Parsing.after? word (parser bound)) (heads others follow) leads := by
    refine eat_bind missed (fun _ _ => ⟨own, ?_⟩) (.pure (.refl _))
    exact (item.mono (.refl _) within (.refl _)).reshape.wide
  exact optional.bind (.refl _) rest

/-- The mark that closes a part is a filler. -/
theorem closedBy {sign : Mark} (item : Steady own leads starving parser middle [false])
    (closes : some (.mark sign) ∈ middle) (trail : either ⊆ trails) :
    Steady (own ++ [.mark sign]) leads (Parsing.closedBy sign starving)
      (fun bound => Parsing.closedBy sign (parser bound)) follow trails := by
  refine item.bind (List.cons_subset.2 ⟨closes, List.nil_subset _⟩) fun value => ?_
  -- No mark has another meaning, so the filler is the mark itself.
  refine require_bind ?_ fun _ => .pure trail
  cases sign <;> decide

/-- Lists have one item, unless the text has more. -/
theorem separated {filler : Filler} (item : Steady [filler] either starving parser middle trails)
    (within : follow ⊆ middle)
    (missed : ∀ token ∈ fronts [] trails follow, token.isMark .comma = false)
    (most : Nat) (limit : Nat → Nat) :
    Steady [filler] either (Parsing.separated starving most)
      (fun bound => Parsing.separated (parser bound) (limit bound)) follow trails := by
  -- The induction is on the bound of the starving list. The bound of the other one is arbitrary, so
  -- it may run out first.
  induction most generalizing limit with
  | zero =>
    -- Giving up does not starve, and where the bound allows an item there is one.
    refine ⟨fun bound => ?_, .exhausted⟩
    cases limit bound with
    | zero => exact .exhausted
    | succ most =>
      exact (item.finishes bound).bind within fun first => .eat_bind missed (.pure (.refl _))
  | succ most ih =>
    have longer : Steady [filler] either (Parsing.separated starving (most + 1))
        (fun bound => Parsing.separated (parser bound) (limit bound - 1 + 1)) follow trails := by
      -- After a comma the text has one more item, and the list after it is a shorter one.
      refine item.bind within fun first => eat_bind missed (fun _ _ => ?_) (.pure (.refl _))
      exact ⟨[filler], (ih fun bound => limit bound - 1).reshape.wide⟩
    refine longer.bounded fun bound => ?_
    cases limit bound with
    | zero => exact .inl rfl
    | succ most => exact .inr rfl

end Steady

end SelectSql
