import SelectSql.Proofs.Spelling.Ahead

/-!
White space before a comma. A comma may be moved away from what is before it exactly if the slots
leave a gap there; where they do not, the comma is tight.
-/

namespace SelectSql

/-- For each comma that slots take, whether there is no room for white space before it. -/
def tightCommas (tight : Bool) : List Slot → List Bool
  -- The flag says whether a lexeme was the last thing taken; looks leave it as it is.
  | [] => []
  | .token lexeme :: slots =>
    (if lexeme = .mark .comma then [tight] else []) ++ tightCommas true slots
  | .gap :: slots | .blank :: slots => tightCommas false slots
  | .notBefore _ :: slots | .notTouching _ :: slots => tightCommas tight slots

/-- Whether there is no room for white space after slots. -/
def tightAfter (tight : Bool) : List Slot → Bool
  | [] => tight
  | .token _ :: slots => tightAfter true slots
  | .gap :: slots | .blank :: slots => tightAfter false slots
  | .notBefore _ :: slots | .notTouching _ :: slots => tightAfter tight slots

variable {slots others : List Slot} {marks : List Mark} {tight : Bool}
  {front rest : List Lexeme} {lexeme : Lexeme} {test : Lexeme → Bool}

section Parts

/-- The commas of two parts are those of the first and then those of the second. -/
theorem tightCommas_append : tightCommas tight (slots ++ others) =
    tightCommas tight slots ++ tightCommas (tightAfter tight slots) others := by
  fun_induction tightCommas tight slots with
  | case1 => rfl
  | case2 tight lexeme slots ih =>
    show _ ++ tightCommas true (slots ++ others) = _
    rw [ih]
    exact (List.append_assoc _ _ _).symm
  | case3 _ _ ih | case4 _ _ ih | case5 _ _ _ ih | case6 _ _ _ ih => exact ih

/-- The second of two parts says whether there is room after both. -/
theorem tightAfter_append :
    tightAfter tight (slots ++ others) = tightAfter (tightAfter tight slots) others := by
  fun_induction tightAfter tight slots with
  | case1 => rfl
  | case2 tight lexeme slots ih => exact ih
  | case3 _ _ ih | case4 _ _ ih | case5 _ _ _ ih | case6 _ _ _ ih => exact ih

/-- There are as many places before commas as commas. -/
theorem length_tightCommas :
    (tightCommas tight slots).length = (solids slots).count (.mark .comma) := by
  fun_induction tightCommas tight slots with
  | case1 => rfl
  | case2 tight lexeme slots ih =>
    -- White space is no comma, and it leaves no trace among the solid lexemes either.
    by_cases solid : lexeme = .space
    · subst solid
      exact ih
    · rw [solids_token solid, List.count_cons, List.length_append, ih, Nat.add_comm]
      by_cases comma : lexeme = .mark .comma <;> simp [comma]
  | case3 _ _ ih | case4 _ _ ih | case5 _ _ _ ih | case6 _ _ _ ih => exact ih

end Parts

section Inserting

/-- A comma in front, after white space, is not tight. -/
theorem head?_tightCommas (filled : fill slots (.mark .comma :: rest) = some []) :
    (tightCommas false slots).head? = some false := by
  induction slots with
  | nil => cases filled
  | cons slot slots ih =>
    cases slot with
    -- The comma goes to the first slot that takes a lexeme, and there is room before it.
    | token lexeme =>
      obtain ⟨after, same, _⟩ := fill_token_eq_some.1 filled
      obtain ⟨rfl, _⟩ := List.cons.inj same
      simp [tightCommas]
    | gap =>
      rw [fill_gap, skip_cons (by simp)] at filled
      exact ih filled
    | blank =>
      -- A blank would not take a comma.
      obtain ⟨after, same, _⟩ := fill_blank_eq_some.1 filled
      cases same
    | notBefore test => exact ih (fill_notBefore_eq_some.1 filled).2
    | notTouching test => exact ih (fill_notTouching_eq_some.1 filled).2

/-- White space in front counts for no comma. -/
private theorem count_skip : (skip front).count (.mark .comma) = front.count (.mark .comma) := by
  induction front with
  | nil => rfl
  | cons lexeme front ih =>
    by_cases solid : lexeme = .space
    · subst solid
      simpa using ih
    · rw [skip_cons solid]

/-- White space before a comma is not what is seen first after white space. -/
private theorem head?_skip_insert : (skip (front ++ .space :: .mark .comma :: rest)).head? =
    (skip (front ++ .mark .comma :: rest)).head? := by
  rw [skip_append, skip_append]
  split
  · rfl
  · rename_i some
    cases shape : skip front with
    | nil => simp [shape] at some
    | cons lexeme others => rfl

/-- White space before a comma leaves the slots filled exactly if the comma is not tight. -/
theorem fill_insert (heeds : ∀ slot ∈ slots, slot.Heeds marks)
    (filled : fill slots (front ++ .mark .comma :: rest) = some [])
    (flush : front = [] → tight = true) :
    ∃ held, (tightCommas tight slots)[front.count (.mark .comma)]? = some held ∧
      (fill slots (front ++ .space :: .mark .comma :: rest) = some [] ↔ held = false) := by
  induction slots generalizing tight front with
  | nil => cases front <;> cases filled
  | cons slot slots ih =>
    have ih := fun tight front => @ih tight front fun slot member => heeds slot (by simp [member])
    -- After a gap the comma is not tight, and white space in front makes no difference.
    have gapped : ∀ front, fill slots (skip (front ++ .mark .comma :: rest)) = some [] →
        ∃ held, (tightCommas false slots)[front.count (.mark .comma)]? = some held ∧
          (fill slots (skip (front ++ .space :: .mark .comma :: rest)) = some [] ↔
            held = false) := by
      intro front filled
      rw [← count_skip]
      cases shape : skip front with
      | nil =>
        -- The comma comes right after the gap, which takes the new white space as well.
        rw [skip_append, shape, List.isEmpty_nil, if_pos rfl, skip_cons (by simp)] at filled
        rw [skip_append, shape, List.isEmpty_nil, if_pos rfl, skip_space, skip_cons (by simp)]
        refine ⟨false, ?_, by simp [filled]⟩
        rw [List.count_nil, ← List.head?_eq_getElem?]
        exact head?_tightCommas filled
      | cons first others =>
        -- The comma comes after another lexeme, which the later slots take.
        rw [skip_append, shape] at filled
        rw [skip_append, shape]
        exact ih false _ filled (by simp)
    cases slot with
    | token lexeme =>
      cases front with
      | nil =>
        -- The slot is that of the comma itself, and it takes no white space.
        obtain ⟨after, same, _⟩ := fill_token_eq_some.1 filled
        obtain ⟨rfl, _⟩ := List.cons.inj same
        refine ⟨true, by simp [tightCommas, flush rfl], ?_⟩
        simp [fill, Slot.fill]
      | cons first front =>
        -- A comma taken earlier has its own flag in front of the others.
        obtain ⟨after, same, left⟩ := fill_token_eq_some.1 filled
        obtain ⟨rfl, rfl⟩ := List.cons.inj same
        obtain ⟨held, at_, same⟩ := ih true front left fun _ => rfl
        refine ⟨held, ?_, by simpa using same⟩
        by_cases comma : first = .mark .comma
        · simpa [tightCommas, comma] using at_
        · simpa [tightCommas, comma, List.count_cons] using at_
    | gap => exact gapped front filled
    | blank =>
      obtain ⟨after, same, left⟩ := fill_blank_eq_some.1 filled
      cases front with
      | nil => cases same
      | cons first front =>
        obtain ⟨rfl, rfl⟩ := List.cons.inj same
        obtain ⟨held, at_, same⟩ := gapped front left
        exact ⟨held, by simpa [tightCommas] using at_, by simpa using same⟩
    | notBefore test =>
      -- A look ahead sees past white space.
      obtain ⟨avoids, left⟩ := fill_notBefore_eq_some.1 filled
      have still : Avoids test (skip (front ++ .space :: .mark .comma :: rest)) := by
        rw [Avoids, head?_skip_insert]
        exact avoids
      rw [fill_notBefore still]
      exact ih tight front left flush
    | notTouching test =>
      obtain ⟨avoids, left⟩ := fill_notTouching_eq_some.1 filled
      have still : Avoids test (front ++ .space :: .mark .comma :: rest) := by
        cases front with
        | nil =>
          -- White space is no mark, and so it is not heeded.
          rw [List.nil_append, avoids_cons, ← Bool.not_eq_true]
          intro passes
          obtain ⟨sign, _, same⟩ := heeds (.notTouching test) (by simp) _ passes
          cases same
        | cons first front => exact avoids
      rw [fill_notTouching still]
      exact ih tight front left flush

end Inserting

end SelectSql
