import SelectSql.Proofs.Spelling.Slot

/-!
What slots look at. A look ahead sees the next lexeme that the slots take, or beyond them what
follows, so whether all looks pass depends on the slots and on what follows, not on the white space.
-/

namespace SelectSql

variable {slots others : List Slot} {lexeme : Lexeme} {lexemes after rest more : List Lexeme}
  {test : Lexeme → Bool} {next : Option Lexeme} {marks : List Mark}

section Looking

/-- The first lexeme that slots take, or else what comes next after them. -/
def ahead (next : Option Lexeme) (slots : List Slot) : Option Lexeme :=
  (solids slots).head?.or next

/-- Whether every look ahead passes, with what comes next after the slots. -/
def Passes (next : Option Lexeme) : List Slot → Prop
  | [] => True
  | .notBefore test :: slots =>
    (∀ lexeme ∈ ahead next slots, test lexeme = false) ∧ Passes next slots
  | _ :: slots => Passes next slots

/-- Where there are no slots, what comes next is seen. -/
@[simp] theorem ahead_nil : ahead next [] = next := rfl

/-- A lexeme that is taken is seen. -/
theorem ahead_token (solid : lexeme ≠ .space) :
    ahead next (.token lexeme :: slots) = some lexeme := by
  have first : (solids (.token lexeme :: slots)).head? = some lexeme :=
    congrArg List.head? (strip_cons solid)
  rw [ahead, first]
  rfl

/-- A symbol that is taken is seen. -/
@[simp] theorem ahead_symbol {terminal : Terminal} :
    ahead next (.token (.symbol terminal) :: slots) = some (.symbol terminal) :=
  ahead_token (by simp)

/-- Gaps are looked past. -/
@[simp] theorem ahead_gap : ahead next (.gap :: slots) = ahead next slots := rfl

/-- Blanks are looked past. -/
@[simp] theorem ahead_blank : ahead next (.blank :: slots) = ahead next slots := rfl

/-- Looks ahead are looked past. -/
@[simp] theorem ahead_notBefore : ahead next (.notBefore test :: slots) = ahead next slots := rfl

/-- Looks at what touches are looked past. -/
@[simp] theorem ahead_notTouching :
    ahead next (.notTouching test :: slots) = ahead next slots := rfl

/-- The second of two parts is what comes next after the first. -/
@[simp] theorem ahead_append : ahead next (slots ++ others) = ahead (ahead next others) slots := by
  rw [ahead, solids_append]
  cases first : solids slots with
  | nil => simp [ahead, first]
  | cons => simp [ahead, first]

/-- Nothing is looked at by no slots. -/
@[simp] theorem passes_nil : Passes next [] := trivial

/-- A slot for a lexeme looks at nothing. -/
@[simp] theorem passes_token : Passes next (.token lexeme :: slots) ↔ Passes next slots := Iff.rfl

/-- A gap looks at nothing. -/
@[simp] theorem passes_gap : Passes next (.gap :: slots) ↔ Passes next slots := Iff.rfl

/-- A blank looks at nothing. -/
@[simp] theorem passes_blank : Passes next (.blank :: slots) ↔ Passes next slots := Iff.rfl

/-- A look at what touches is no look ahead. -/
@[simp] theorem passes_notTouching :
    Passes next (.notTouching test :: slots) ↔ Passes next slots := Iff.rfl

/-- A look ahead passes if the lexeme seen fails the test. -/
@[simp] theorem passes_notBefore : Passes next (.notBefore test :: slots) ↔
    (∀ lexeme ∈ ahead next slots, test lexeme = false) ∧ Passes next slots := Iff.rfl

/-- Two parts pass if each does, the first with the second next. -/
@[simp] theorem passes_append :
    Passes next (slots ++ others) ↔ Passes (ahead next others) slots ∧ Passes next others := by
  induction slots with
  | nil => simp
  | cons slot slots ih =>
    rw [List.cons_append]
    cases slot with
    | notBefore test => simp [ih, and_assoc]
    | _ => exact ih

/-- What lexemes begin with is what the slots that they fill begin with. -/
theorem head?_skip_of_fill (filled : fill slots lexemes = some rest) :
    (skip lexemes).head? = ahead (strip rest).head? slots := by
  rw [← head?_strip, strip_of_fill filled, ahead]
  cases solids slots <;> simp

/-- Where slots are filled their looks pass. -/
theorem passes_of_fill (filled : fill slots lexemes = some rest) :
    Passes (strip rest).head? slots := by
  induction slots generalizing lexemes with
  | nil => trivial
  | cons slot slots ih =>
    cases slot with
    | notBefore test =>
      -- The lexeme that was tested is the one that the later slots begin with.
      obtain ⟨avoids, filled⟩ := fill_notBefore_eq_some.1 filled
      rw [Avoids, head?_skip_of_fill filled] at avoids
      exact ⟨avoids, ih filled⟩
    | _ =>
      obtain ⟨after, _, filled⟩ := Option.bind_eq_some_iff.1 filled
      exact ih filled

/-- Slots are filled where they would be without their looks, if these pass. -/
theorem fill_of_passes (filled : fill (plain slots) lexemes = some rest)
    (passes : Passes (strip rest).head? slots) : fill slots lexemes = some rest := by
  induction slots generalizing lexemes with
  | nil => exact filled
  | cons slot slots ih =>
    cases slot with
    | notBefore test =>
      -- The later slots are filled first, since they tell which lexeme the look sees.
      have inner := ih filled passes.2
      rw [fill_notBefore, inner]
      rw [Avoids, head?_skip_of_fill inner]
      exact passes.1
    | _ =>
      obtain ⟨after, first, filled⟩ := Option.bind_eq_some_iff.1 filled
      exact Option.bind_eq_some_iff.2 ⟨after, first, ih filled passes⟩

/-- What fills a spelling may be spaced in another way that suits it; the looks ahead still pass. -/
theorem fill_of_plain {spaced left : List Lexeme} (filled : fill slots lexemes = some rest)
    (again : fill (plain slots) spaced = some left) (alike : strip left = strip rest) :
    fill slots spaced = some left := by
  have passes := passes_of_fill filled
  -- What comes after the slots is seen alike in both, white space aside.
  rw [← alike] at passes
  exact fill_of_passes again passes

end Looking

section Cutting

/-- What is left after white space is an end of the lexemes. -/
theorem skip_suffix (lexemes : List Lexeme) : skip lexemes <:+ lexemes :=
  List.dropWhile_suffix _

/-- What is left of lexemes is an end of them. -/
theorem suffix_of_fill (filled : fill slots lexemes = some rest) : rest <:+ lexemes := by
  induction slots generalizing lexemes with
  | nil =>
    obtain rfl := Option.some.inj filled
    exact List.suffix_rfl
  | cons slot slots ih =>
    obtain ⟨after, first, filled⟩ := Option.bind_eq_some_iff.1 filled
    refine (ih filled).trans ?_
    -- A slot drops white space or the first lexeme, or it drops nothing.
    cases slot with
    | token lexeme =>
      simp only [Slot.fill, Option.ite_none_right_eq_some, Option.some.injEq] at first
      rw [← first.2]
      exact List.tail_suffix lexemes
    | gap =>
      obtain rfl := Option.some.inj first
      exact skip_suffix lexemes
    | blank =>
      simp only [Slot.fill, Option.ite_none_right_eq_some, Option.some.injEq] at first
      rw [← first.2]
      exact skip_suffix lexemes
    | notBefore test =>
      simp only [Slot.fill, Option.ite_none_right_eq_some, Option.some.injEq] at first
      exact first.2 ▸ List.suffix_rfl
    | notTouching test =>
      simp only [Slot.fill, Option.ite_none_right_eq_some, Option.some.injEq] at first
      exact first.2 ▸ List.suffix_rfl

/-- A test that the first of some lexemes fails is failed also if they are cut short. -/
theorem Avoids.of_append (avoids : Avoids test (lexemes ++ rest)) : Avoids test lexemes := by
  cases lexemes with
  | nil => exact avoids_nil
  | cons lexeme lexemes => exact avoids

/-- Slots that leave just what follows some lexemes take all of these where nothing follows. -/
theorem fill_cut (filled : fill slots (lexemes ++ rest) = some rest) :
    fill slots lexemes = some [] := by
  induction slots generalizing lexemes with
  | nil =>
    -- Nothing is taken, so there is nothing in front of what follows.
    have same : lexemes ++ rest = rest := Option.some.inj filled
    rw [fill_nil, List.append_left_eq_self.1 same]
  | cons slot slots ih =>
    -- White space in front of what follows would have to be left, and it is skipped.
    have gapped : ∀ lexemes, fill slots (skip (lexemes ++ rest)) = some rest →
        fill slots (skip lexemes) = some [] := by
      intro lexemes filled
      rw [skip_append] at filled
      split at filled
      · rename_i empty
        have flush : skip rest = rest :=
          (skip_suffix rest).eq_of_length_le (suffix_of_fill filled).length_le
        rw [flush] at filled
        rw [List.isEmpty_iff.1 empty]
        exact ih filled
      · exact ih filled
    cases slot with
    | token lexeme =>
      obtain ⟨after, shape, left⟩ := fill_token_eq_some.1 filled
      cases lexemes with
      | nil =>
        -- What follows would be longer than what is left of it.
        obtain rfl : rest = lexeme :: after := shape
        have longer : after.length + 1 ≤ after.length := (suffix_of_fill left).length_le
        omega
      | cons first lexemes =>
        obtain ⟨rfl, rfl⟩ := List.cons.inj shape
        rw [fill_token]
        exact ih left
    | gap => exact gapped lexemes filled
    | blank =>
      obtain ⟨after, shape, left⟩ := fill_blank_eq_some.1 filled
      cases lexemes with
      | nil =>
        obtain rfl : rest = .space :: after := shape
        have longer : after.length + 1 ≤ (skip after).length :=
          (suffix_of_fill left).length_le
        have shorter := (skip_suffix after).length_le
        omega
      | cons first lexemes =>
        obtain ⟨rfl, rfl⟩ := List.cons.inj shape
        rw [fill_blank]
        exact gapped lexemes left
    | notBefore test =>
      obtain ⟨avoids, filled⟩ := fill_notBefore_eq_some.1 filled
      have still : Avoids test (skip lexemes) := by
        rw [skip_append] at avoids
        split at avoids
        · rename_i empty
          rw [List.isEmpty_iff.1 empty]
          exact avoids_nil
        · exact avoids.of_append
      rw [fill_notBefore still]
      exact ih filled
    | notTouching test =>
      obtain ⟨avoids, filled⟩ := fill_notTouching_eq_some.1 filled
      rw [fill_notTouching avoids.of_append]
      exact ih filled

end Cutting

section Heeding

/-- Whether a slot takes something else than white space, or heeds only some marks that touch. -/
def Slot.Heeds (marks : List Mark) : Slot → Prop
  -- White space that touches is then never heeded.
  | .token lexeme => lexeme ≠ .space
  | .notTouching test => ∀ lexeme, test lexeme = true → ∃ sign ∈ marks, lexeme = .mark sign
  | _ => True

/-- A gap heeds nothing. -/
@[simp] theorem Slot.heeds_gap : Slot.gap.Heeds marks := trivial

/-- A run of white space fills slots as a single one does. -/
theorem fill_squeeze (heeds : ∀ slot ∈ slots, slot.Heeds marks) :
    fill slots (squeeze lexemes) = (fill slots lexemes).map squeeze := by
  induction slots generalizing lexemes with
  | nil => rfl
  | cons slot slots ih =>
    have ih := fun lexemes => @ih lexemes fun slot member => heeds slot (by simp [member])
    cases slot with
    | token lexeme =>
      -- A slot for white space itself would take one of a run only.
      have solid : lexeme ≠ .space := heeds (.token lexeme) (by simp)
      cases lexemes with
      | nil => simp [fill, Slot.fill]
      | cons first lexemes =>
        by_cases same : first = lexeme
        · subst same
          rw [squeeze_cons solid, fill_token, fill_token, ih]
        · simp [fill, Slot.fill, same]
    | gap => rw [fill_gap, fill_gap, skip_squeeze, ih]
    | blank =>
      by_cases first : lexemes.head? = some .space
      · simp [fill, Slot.fill, first, ih]
      · simp [fill, Slot.fill, first]
    | notBefore test =>
      have same : Avoids test (squeeze (skip lexemes)) ↔ Avoids test (skip lexemes) := by
        rw [Avoids, head?_squeeze, Avoids]
      by_cases avoids : Avoids test (skip lexemes)
      · rw [fill_notBefore avoids, fill_notBefore, ih]
        rw [skip_squeeze, same]
        exact avoids
      · simp [fill, Slot.fill, avoids, same]
    | notTouching test =>
      -- A run of white space has the same first lexeme however long it is.
      have same : Avoids test (squeeze lexemes) ↔ Avoids test lexemes := by
        rw [Avoids, head?_squeeze, Avoids]
      by_cases avoids : Avoids test lexemes
      · rw [fill_notTouching (same.2 avoids), fill_notTouching avoids, ih]
      · simp [fill, Slot.fill, avoids, same]

/-- A slot that heeds no mark that comes first does not heed what touches it. -/
private theorem avoids_of_heeds (heeds : (Slot.notTouching test).Heeds marks)
    (apart : ∀ sign ∈ marks, (strip lexemes).head? ≠ some (.mark sign)) : Avoids test lexemes := by
  intro lexeme first
  cases passed : test lexeme with
  | false => rfl
  | true =>
    -- White space is no mark, so a mark that comes first is the first of the others.
    obtain ⟨sign, member, rfl⟩ := heeds lexeme passed
    have flush : skip lexemes = lexemes := skip_eq_self (by simp [Option.mem_def.1 first])
    refine absurd ?_ (apart sign member)
    rw [head?_strip, flush]
    exact first

/-- What fills slots to the end fills them before more too, if no mark that is heeded touches. -/
theorem fill_followed (heeds : ∀ slot ∈ slots, slot.Heeds marks)
    (filled : fill (slots ++ [.gap]) lexemes = some [])
    (apart : ∀ sign ∈ marks, (strip more).head? ≠ some (.mark sign)) :
    fill (plain slots ++ [.gap]) (lexemes ++ more) = some (skip more) := by
  induction slots generalizing lexemes more with
  | nil =>
    have none : skip lexemes = [] := Option.some.inj filled
    simp [plain, skip_append, none]
  | cons slot slots ih =>
    have ih := fun lexemes more => @ih lexemes more fun slot member => heeds slot (by simp [member])
    -- A gap at the end of the lexemes goes on into what follows them.
    have gapped : ∀ lexemes, fill (slots ++ [.gap]) (skip lexemes) = some [] →
        fill (plain slots ++ [.gap]) (skip (lexemes ++ more)) = some (skip more) := by
      intro lexemes filled
      rw [skip_append]
      split
      · rename_i empty
        rw [List.isEmpty_iff.1 empty] at filled
        simpa using ih [] (skip more) filled (by simpa using apart)
      · exact ih (skip lexemes) more filled apart
    cases slot with
    | token lexeme =>
      obtain ⟨after, rfl, left⟩ := fill_token_eq_some.1 filled
      show fill (.token lexeme :: (plain slots ++ [.gap])) (lexeme :: (after ++ more)) = _
      rw [fill_token, ih after more left apart]
    | gap => exact gapped lexemes filled
    | blank =>
      obtain ⟨after, rfl, left⟩ := fill_blank_eq_some.1 filled
      show fill (.blank :: (plain slots ++ [.gap])) (.space :: (after ++ more)) = _
      rw [fill_blank, gapped after left]
    | notBefore test => exact ih lexemes more (fill_notBefore_eq_some.1 filled).2 apart
    | notTouching test =>
      obtain ⟨avoids, left⟩ := fill_notTouching_eq_some.1 filled
      -- Only at the end of the lexemes does the slot see what follows them.
      have still : Avoids test (lexemes ++ more) := by
        cases lexemes with
        | nil => exact avoids_of_heeds (heeds (.notTouching test) (by simp)) apart
        | cons first lexemes => exact avoids
      show fill (.notTouching test :: (plain slots ++ [.gap])) _ = _
      rw [fill_notTouching still, ih lexemes more left apart]

end Heeding

end SelectSql
