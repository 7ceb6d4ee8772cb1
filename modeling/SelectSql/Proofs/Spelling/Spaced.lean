import SelectSql.Proofs.Spelling.Reach

/-!
White space in expressions. The lexemes of a spelling fill it in their order exactly if they are
well spaced, which can be seen from any two neighbours without knowing the tree.
-/

namespace SelectSql

/-- Whether a lexeme has white space after it where it must, and none where it must not. -/
def Lexeme.Suits (rest : List Lexeme) : Lexeme → Prop
  -- A name touches the parenthesis of its call, and a point touches what it joins.
  | name _ => rest.head? = some .space → (skip rest).head? ≠ some (.mark .openParen)
  | space => rest.head? ≠ some (.mark .dot)
  | symbol (.mark .dot) => rest.head? ≠ some .space
  | symbol (.keyword .case) => rest.head? = some .space
  | _ => True

/-- Lexemes of which each has white space after it where it must, and none where it must not. -/
def WellSpaced : List Lexeme → Prop
  | [] => True
  | lexeme :: rest => lexeme.Suits rest ∧ WellSpaced rest

/-- Slots that their own lexemes fill exactly if these are well spaced. -/
def Sure (slots : List Slot) : Prop :=
  -- The second half leaves out the looks ahead, since white space alone is to blame.
  ∀ lexemes, strip lexemes = solids slots →
    (WellSpaced lexemes → fill slots lexemes = some []) ∧
      (fill (plain slots) lexemes = some [] → WellSpaced lexemes)

/-- Whether a lexeme after an expression of a tier goes on with no part of it. -/
def Lexeme.Clear (tier : Tier) (lexeme : Lexeme) : Prop :=
  (∀ upper, lexeme.joins? = some upper → tier.rank < upper.rank) ∧ lexeme.extendsName = false

/-- Slots of which nothing goes on before lexemes that are clear of a tier. -/
def Settles (tier : Tier) (slots : List Slot) : Prop :=
  ∀ others, (∀ next ∈ (solids others).head?, next.Clear tier) → Sure (.gap :: others) →
    Sure (.gap :: (slots ++ .gap :: others))

variable {slots others : List Slot} {lexeme : Lexeme} {lexemes more : List Lexeme}
  {test : Lexeme → Bool} {tier lower upper limit : Tier} {node left right : Node} {op : BinaryOp}

section Solids

/-- The first of the stripped lexemes stands after white space only. -/
theorem exists_of_strip (shape : strip lexemes = lexeme :: more) :
    ∃ after, skip lexemes = lexeme :: after ∧ strip after = more := by
  -- The induction skips the white space in front and stops at the first other lexeme.
  induction lexemes with
  | nil => cases shape
  | cons first lexemes ih =>
    by_cases solid : first = .space
    · subst solid
      exact ih shape
    · rw [strip_cons solid] at shape
      obtain ⟨rfl, same⟩ := List.cons.inj shape
      exact ⟨lexemes, skip_cons solid, same⟩

/-- White space in front does not matter unless a point follows it. -/
theorem wellSpaced_skip (apart : (skip lexemes).head? ≠ some (.mark .dot)) :
    WellSpaced lexemes ↔ WellSpaced (skip lexemes) := by
  induction lexemes with
  | nil => exact Iff.rfl
  | cons first lexemes ih =>
    by_cases solid : first = .space
    · subst solid
      rw [skip_space] at apart ⊢
      rw [← ih apart]
      -- A space suits its place unless a point comes after it, and the point is ruled out.
      constructor
      · exact And.right
      · intro spaced
        refine ⟨?_, spaced⟩
        intro dot
        rw [skip_eq_self (by rw [dot]; simp)] at apart
        exact apart dot
    · rw [skip_cons solid]

/-- Whether lexemes are well spaced does not depend on the end of input. -/
theorem wellSpaced_append_foreign : WellSpaced (lexemes ++ [.foreign]) ↔ WellSpaced lexemes := by
  -- No condition asks for the lexeme of the end, so adding it decides nothing.
  have first : ∀ (rest : List Lexeme) (terminal : Terminal),
      (skip (rest ++ [.foreign])).head? = some (.symbol terminal) ↔
        (skip rest).head? = some (.symbol terminal) := by
    intro rest terminal
    rw [← head?_strip, ← head?_strip, strip_append]
    cases strip rest <;> simp [strip]
  have suits : ∀ (lexeme : Lexeme) (rest : List Lexeme),
      lexeme.Suits (rest ++ [.foreign]) ↔ lexeme.Suits rest := by
    intro lexeme rest
    have next : ∀ other : Lexeme, other ≠ .foreign →
        ((rest ++ [Lexeme.foreign]).head? = some other ↔ rest.head? = some other) := by
      intro other solid
      cases rest with
      | nil => simpa using solid.symm
      | cons => rfl
    -- Each kind of lexeme looks at its neighbour for a space, a point or a parenthesis.
    cases lexeme with
    | symbol terminal =>
      cases terminal with
      | keyword word => cases word <;> first | exact Iff.rfl | exact next .space (by simp)
      | mark sign => cases sign <;> first | exact Iff.rfl | exact not_congr (next .space (by simp))
    | name text => exact imp_congr (next .space (by simp)) (not_congr (first rest _))
    | space => exact not_congr (next (.mark .dot) (by simp))
    | literal text => exact Iff.rfl
    | foreign => exact Iff.rfl
  induction lexemes with
  | nil => simp [WellSpaced, Lexeme.Suits]
  | cons lexeme rest ih =>
    rw [List.cons_append, WellSpaced, WellSpaced]
    exact and_congr (suits lexeme rest) ih

/-- A point that well spaced lexemes begin with has no white space before it. -/
theorem WellSpaced.flush (well : WellSpaced lexemes)
    (dot : (skip lexemes).head? = some (.mark .dot)) : skip lexemes = lexemes := by
  induction lexemes with
  | nil => rfl
  | cons first lexemes ih =>
    by_cases solid : first = .space
    · subst solid
      obtain ⟨apart, well⟩ := well
      rw [skip_space] at dot
      rw [ih well dot] at dot
      -- A space before the point would not suit it.
      exact absurd dot apart
    · exact skip_cons solid

/-- What comes first is white space or the first of the other lexemes. -/
theorem space_or_first {next : Lexeme} (first : next ∈ lexemes.head?) :
    next = .space ∨ next ∈ (strip lexemes).head? := by
  by_cases solid : next = .space
  · exact Or.inl solid
  · have flush : lexemes.head? ≠ some .space := by
      rw [Option.mem_def.1 first]
      intro same
      exact solid (Option.some.inj same)
    -- Without white space in front the first lexeme stays first.
    rw [head?_strip, skip_eq_self flush]
    exact Or.inr first

/-- White space suits a name that no parenthesis follows. -/
theorem suits_name {text : String} (same : strip lexemes = solids slots)
    (clear : ∀ next ∈ (solids slots).head?, next.extendsName = false) :
    (Lexeme.name text).Suits lexemes := by
  -- A parenthesis would extend the name.
  intro _ opening
  rw [← head?_strip, same] at opening
  cases clear _ opening

end Solids

namespace Sure

/-- At the end white space is all that is left. -/
theorem done : Sure [.gap] := by
  intro lexemes none
  have empty : skip lexemes = [] := by
    have first := @head?_strip lexemes
    rw [none] at first
    cases left : skip lexemes with
    | nil => rfl
    | cons lexeme rest =>
      rw [left] at first
      cases first
  -- White space at the end is well spaced and fills the gap.
  refine ⟨?_, ?_⟩
  · intro _
    rw [fill_gap, empty, fill_nil]
  · intro _
    rw [wellSpaced_skip (by rw [empty]; simp), empty]
    trivial

/-- A gap may be left twice. -/
theorem gap_gap (sure : Sure (.gap :: slots)) : Sure (.gap :: .gap :: slots) := by
  intro lexemes same
  obtain ⟨fills, spaced⟩ := sure lexemes same
  -- A second gap finds no white space.
  refine ⟨?_, ?_⟩
  · intro well
    rw [fill_gap, fill_gap, skip_skip]
    exact fills well
  · intro filled
    have filled : fill (plain slots) (skip (skip lexemes)) = some [] := filled
    rw [skip_skip] at filled
    exact spaced filled

/-- A gap left twice is left once. -/
theorem of_gap_gap (sure : Sure (.gap :: .gap :: slots)) : Sure (.gap :: slots) := by
  intro lexemes same
  obtain ⟨fills, spaced⟩ := sure lexemes same
  refine ⟨?_, ?_⟩
  · intro well
    have filled := fills well
    rw [fill_gap, fill_gap, skip_skip] at filled
    exact filled
  · intro filled
    apply spaced
    show fill (plain slots) (skip (skip lexemes)) = some []
    rw [skip_skip]
    exact filled

/-- A look ahead passes if the next lexeme fails the test. -/
theorem gap_notBefore (avoids : ∀ next ∈ (solids slots).head?, test next = false)
    (sure : Sure (.gap :: slots)) : Sure (.gap :: .notBefore test :: slots) := by
  intro lexemes same
  obtain ⟨fills, spaced⟩ := sure lexemes same
  refine ⟨?_, spaced⟩
  intro well
  rw [fill_gap, fill_notBefore]
  · exact fills well
  · -- Behind the gap the look ahead sees the first solid lexeme.
    rw [skip_skip, Avoids, ← head?_strip, same]
    exact avoids

/-- A lexeme after a gap is sure if what follows it is, with white space as it suits the lexeme. -/
theorem cons (solid : lexeme ≠ .space) (noDot : lexeme ≠ .mark .dot)
    (after : ∀ lexemes, strip lexemes = solids slots →
      (lexeme.Suits lexemes ∧ WellSpaced lexemes → fill slots lexemes = some []) ∧
        (fill (plain slots) lexemes = some [] → lexeme.Suits lexemes ∧ WellSpaced lexemes)) :
    Sure (.gap :: .token lexeme :: slots) := by
  intro lexemes same
  rw [solids_gap, solids_token solid] at same
  -- The gap is filled by what stands before the first solid lexeme, whatever that is.
  obtain ⟨rest, first, others⟩ := exists_of_strip same
  obtain ⟨fills, spaced⟩ := after rest others
  have apart : (skip lexemes).head? ≠ some (.mark .dot) := by
    rw [first]
    intro dot
    exact noDot (Option.some.inj dot)
  rw [wellSpaced_skip apart, first]
  -- What follows the lexeme decides both ways.
  refine ⟨?_, ?_⟩
  · intro well
    rw [fill_gap, first, fill_token]
    exact fills well
  · intro filled
    have filled : fill (.token lexeme :: plain slots) (skip lexemes) = some [] := filled
    rw [first, fill_token] at filled
    exact spaced filled

/-- A lexeme that white space suits as well as none is sure before a gap. -/
theorem token (solid : lexeme ≠ .space) (noDot : lexeme ≠ .mark .dot)
    (suits : ∀ lexemes, strip lexemes = solids slots → lexeme.Suits lexemes)
    (sure : Sure (.gap :: slots)) : Sure (.gap :: .token lexeme :: .gap :: slots) := by
  apply cons solid noDot
  intro lexemes same
  obtain ⟨fills, spaced⟩ := sure lexemes same
  refine ⟨fun well => fills well.2, fun filled => ⟨suits lexemes same, spaced filled⟩⟩

/-- A symbol that white space suits as well as none is sure before a gap. -/
theorem symbol {terminal : Terminal} (free : ∀ rest, (Lexeme.symbol terminal).Suits rest)
    (sure : Sure (.gap :: slots)) :
    Sure (.gap :: .token (.symbol terminal) :: .gap :: slots) := by
  -- A point does not suit white space after it, so it is not among these symbols.
  have noDot : Lexeme.symbol terminal ≠ .mark .dot := by
    intro same
    have flush := free [.space]
    rw [same] at flush
    exact flush rfl
  exact token (by simp) noDot (fun rest _ => free rest) sure

/-- A name that must not be touched by a parenthesis or a point is not. -/
theorem reference {text : String} (clear : ∀ next ∈ (solids slots).head?, next.extendsName = false)
    (sure : Sure (.gap :: slots)) :
    Sure (.gap :: .token (.name text) :: .notTouching Lexeme.extendsName :: .gap :: slots) := by
  have solid : Lexeme.name text ≠ .space := by simp
  apply cons solid (by simp)
  intro lexemes same
  obtain ⟨fills, spaced⟩ := sure lexemes same
  refine ⟨?_, ?_⟩
  · rintro ⟨_, well⟩
    rw [fill_notTouching]
    · exact fills well
    · -- What comes next is white space, or the first solid lexeme, which does not extend a name.
      intro next first
      rcases space_or_first first with blank | first
      · rw [blank]
        rfl
      · rw [same] at first
        exact clear next first
  · intro filled
    exact ⟨suits_name same clear, spaced (fill_notTouching_eq_some.1 filled).2⟩

/-- A qualified name is sure, as the point must touch both its sides. -/
theorem member {table : String} (solid : lexeme ≠ .space)
    (suits : ∀ lexemes, strip lexemes = solids slots → lexeme.Suits lexemes)
    (sure : Sure (.gap :: slots)) :
    Sure (.gap :: .token (.name table) :: .mark .dot :: .token lexeme :: .gap :: slots) := by
  have named : Lexeme.name table ≠ .space := by simp
  have point : Lexeme.mark .dot ≠ .space := by simp
  apply cons named (by simp)
  intro lexemes same
  rw [solids_token point, solids_token solid, solids_gap] at same
  refine ⟨?_, ?_⟩
  · rintro ⟨_, well⟩
    -- White space on either side of the point would not be well spaced.
    obtain ⟨after, first, follows⟩ := exists_of_strip same
    rw [well.flush (by rw [first]; rfl)] at first
    subst first
    obtain ⟨flush, well⟩ := well
    obtain ⟨rest, second, last⟩ := exists_of_strip follows
    rw [skip_eq_self flush] at second
    subst second
    rw [fill_token, fill_token]
    exact (sure rest last).1 well.2
  · intro filled
    -- The three tokens are side by side, so neither the name nor the point has white space after
    -- it.
    obtain ⟨after, rfl, joined⟩ := fill_token_eq_some.1 filled
    obtain ⟨rest, rfl, left⟩ := fill_token_eq_some.1 joined
    rw [strip_cons point, strip_cons solid] at same
    have follows := List.cons.inj (List.cons.inj same).2
    refine ⟨by simp [Lexeme.Suits], ?_, suits rest follows.2, (sure rest follows.2).2 left⟩
    intro touching
    exact solid (Option.some.inj touching)

/-- A call is sure from its name on, as its parenthesis must touch the name. -/
theorem call (text : String) (sure : Sure (.gap :: slots)) :
    Sure (.gap :: .token (.name text) :: .mark .openParen :: .gap :: slots) := by
  have named : Lexeme.name text ≠ .space := by simp
  have paren : Lexeme.mark .openParen ≠ .space := by simp
  apply cons named (by simp)
  intro lexemes same
  rw [solids_token paren, solids_gap] at same
  refine ⟨?_, ?_⟩
  · rintro ⟨suits, well⟩
    -- White space after the name would keep it from its parenthesis.
    obtain ⟨after, first, follows⟩ := exists_of_strip same
    have flush : lexemes.head? ≠ some .space := by
      intro blank
      apply suits blank
      rw [first]
      rfl
    rw [skip_eq_self flush] at first
    subst first
    rw [fill_token]
    exact (sure after follows).1 well.2
  · intro filled
    obtain ⟨after, rfl, left⟩ := fill_token_eq_some.1 filled
    rw [strip_cons paren] at same
    have follows := List.cons.inj same
    exact ⟨by simp [Lexeme.Suits], trivial, (sure after follows.2).2 left⟩

/-- A choice is sure from its `CASE` on, as white space must follow that. -/
theorem case (sure : Sure (.gap :: slots)) :
    Sure (.gap :: .keyword .case :: .blank :: slots) := by
  have solid : Lexeme.keyword .case ≠ .space := by simp
  apply cons solid (by simp)
  intro lexemes same
  obtain ⟨fills, spaced⟩ := sure lexemes same
  refine ⟨?_, ?_⟩
  · rintro ⟨suits, well⟩
    have filled := fills well
    -- The `CASE` asks for a space behind it, which fills the blank.
    cases lexemes with
    | nil => cases suits
    | cons first after =>
      obtain rfl := Option.some.inj suits
      rw [fill_blank]
      exact filled
  · intro filled
    obtain ⟨after, rfl, left⟩ := fill_blank_eq_some.1 filled
    exact ⟨rfl, spaced left⟩

end Sure

end SelectSql
