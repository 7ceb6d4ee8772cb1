import SelectSql.Proofs.Lexical.Remaining

/-!
Spellings: the places that a tree leaves for lexemes. A spelling fixes every lexeme, says where
white space may stand, and rules out what must not follow; filling it with lexemes leaves the rest.
-/

namespace SelectSql

/-- One place of a spelling. -/
inductive Slot where
  /-- This lexeme, with no white space before it. -/
  | token (lexeme : Lexeme)
  /-- White space, or none. -/
  | gap
  /-- White space. -/
  | blank
  /-- Anything but the lexemes that pass a test, white space aside. -/
  | notBefore (test : Lexeme → Bool)
  /-- Anything but the lexemes that pass a test, or white space before one. -/
  | notTouching (test : Lexeme → Bool)

namespace Slot

/-- A keyword. -/
abbrev keyword (word : Keyword) : Slot := token (.keyword word)

/-- A mark. -/
abbrev mark (sign : Mark) : Slot := token (.mark sign)

/-- The lexeme that the slot takes, if it takes one. -/
def lexeme? : Slot → Option Lexeme
  | token lexeme => some lexeme
  | _ => none

/-- Whether the slot looks past white space without taking anything. -/
def looksAhead : Slot → Bool
  | notBefore _ => true
  | _ => false

end Slot

/-- Whether the first lexeme, if there is one, fails a test. -/
def Avoids (test : Lexeme → Bool) (lexemes : List Lexeme) : Prop :=
  -- At the end nothing can pass the test.
  ∀ lexeme ∈ lexemes.head?, test lexeme = false

instance (test : Lexeme → Bool) (lexemes : List Lexeme) : Decidable (Avoids test lexemes) :=
  match lexemes with
  | [] => .isTrue (by simp [Avoids])
  | lexeme :: _ => decidable_of_iff (test lexeme = false) (by simp [Avoids])

/-- What is left of lexemes after one slot, if they fill it. -/
def Slot.fill : Slot → List Lexeme → Option (List Lexeme)
  -- The last two take nothing and only look at what comes next.
  | .token lexeme, lexemes => if lexemes.head? = some lexeme then some lexemes.tail else none
  | .gap, lexemes => some (skip lexemes)
  | .blank, lexemes => if lexemes.head? = some .space then some (skip lexemes) else none
  | .notBefore test, lexemes => if Avoids test (skip lexemes) then some lexemes else none
  | .notTouching test, lexemes => if Avoids test lexemes then some lexemes else none

/-- What is left of lexemes after slots in a row, if they fill them. -/
def fill : List Slot → List Lexeme → Option (List Lexeme)
  | [], lexemes => some lexemes
  | slot :: slots, lexemes => (slot.fill lexemes).bind (fill slots)

variable {slots others : List Slot} {lexeme : Lexeme} {lexemes after rest : List Lexeme}
  {test : Lexeme → Bool}

section Avoiding

/-- Nothing passes a test at the end. -/
@[simp] theorem avoids_nil : Avoids test [] := by
  simp [Avoids]

/-- Only the first lexeme is tested. -/
@[simp] theorem avoids_cons : Avoids test (lexeme :: lexemes) ↔ test lexeme = false := by
  simp [Avoids]

/-- A weaker test is failed by more. -/
theorem Avoids.mono {weaker : Lexeme → Bool} (avoids : Avoids test lexemes)
    (passes : ∀ lexeme, weaker lexeme = true → test lexeme = true) : Avoids weaker lexemes := by
  intro lexeme first
  have fails := avoids lexeme first
  -- Passing the weaker test would mean passing the other, which the lexeme fails.
  cases passed : weaker lexeme with
  | false => rfl
  | true =>
    rw [passes lexeme passed] at fails
    cases fails

/-- A first lexeme that fails both of two tests fails their disjunction. -/
theorem Avoids.or {other : Lexeme → Bool} (avoids : Avoids test lexemes)
    (also : Avoids other lexemes) :
    Avoids (fun lexeme => test lexeme || other lexeme) lexemes := by
  intro lexeme first
  simp [avoids lexeme first, also lexeme first]

end Avoiding

section Filling

/-- No slots take nothing. -/
@[simp] theorem fill_nil : fill [] lexemes = some lexemes := rfl

/-- Slots in a row are filled one part after the other. -/
theorem fill_append : fill (slots ++ others) lexemes = (fill slots lexemes).bind (fill others) := by
  induction slots generalizing lexemes with
  | nil => rfl
  -- The first slot belongs to the first part, and what it leaves goes to the rest of both.
  | cons slot slots ih =>
    rw [List.cons_append, fill, fill, Option.bind_assoc]
    congr 1
    funext after
    exact ih

/-- A part that is filled leaves the rest to the other part. -/
theorem fill_append_of (first : fill slots lexemes = some after) :
    fill (slots ++ others) lexemes = fill others after := by
  rw [fill_append, first]
  rfl

/-- What fills two parts fills the first with the second left over. -/
theorem fill_append_eq_some :
    fill (slots ++ others) lexemes = some rest ↔
      ∃ after, fill slots lexemes = some after ∧ fill others after = some rest := by
  rw [fill_append, Option.bind_eq_some_iff]

/-- A slot for a lexeme takes that lexeme. -/
@[simp] theorem fill_token :
    fill (.token lexeme :: slots) (lexeme :: lexemes) = fill slots lexemes := by
  simp [fill, Slot.fill]

/-- A slot for a lexeme is filled by that lexeme only. -/
theorem fill_token_eq_some :
    fill (.token lexeme :: slots) lexemes = some rest ↔
      ∃ after, lexemes = lexeme :: after ∧ fill slots after = some rest := by
  cases lexemes with
  | nil => simp [fill, Slot.fill]
  | cons first lexemes =>
    -- Any other lexeme than the one required leaves the slot unfilled.
    by_cases same : first = lexeme
    · subst same
      simp
    · simp [fill, Slot.fill, same]

/-- Slots that end with a lexeme are filled where those before it leave that lexeme. -/
theorem fill_concat_token :
    fill (slots ++ [.token lexeme]) lexemes = some rest ↔
      fill slots lexemes = some (lexeme :: rest) := by
  rw [fill_append_eq_some]
  constructor
  · rintro ⟨after, filled, last⟩
    obtain ⟨beyond, rfl, same⟩ := fill_token_eq_some.1 last
    rw [filled, ← Option.some.inj same]
  · intro filled
    exact ⟨_, filled, fill_token⟩

/-- A gap takes the white space in front. -/
@[simp] theorem fill_gap : fill (.gap :: slots) lexemes = fill slots (skip lexemes) := rfl

/-- A blank takes the white space that must be in front. -/
@[simp] theorem fill_blank :
    fill (.blank :: slots) (.space :: lexemes) = fill slots (skip lexemes) := by
  simp [fill, Slot.fill]

/-- A blank is filled by white space only. -/
theorem fill_blank_eq_some :
    fill (.blank :: slots) lexemes = some rest ↔
      ∃ after, lexemes = .space :: after ∧ fill slots (skip after) = some rest := by
  cases lexemes with
  | nil => simp [fill, Slot.fill]
  | cons first lexemes =>
    -- Only white space fills the slot, and then all that is left of the run goes too.
    by_cases same : first = .space
    · subst same
      simp
    · simp [fill, Slot.fill, same]

/-- A look ahead takes nothing where the test fails. -/
theorem fill_notBefore (avoids : Avoids test (skip lexemes)) :
    fill (.notBefore test :: slots) lexemes = fill slots lexemes := by
  simp [fill, Slot.fill, avoids]

/-- A look ahead is passed only where the test fails. -/
theorem fill_notBefore_eq_some :
    fill (.notBefore test :: slots) lexemes = some rest ↔
      Avoids test (skip lexemes) ∧ fill slots lexemes = some rest := by
  by_cases avoids : Avoids test (skip lexemes)
  · simp [fill, Slot.fill, avoids]
  · simp [fill, Slot.fill, avoids]

/-- A look at what is touching takes nothing where the test fails. -/
theorem fill_notTouching (avoids : Avoids test lexemes) :
    fill (.notTouching test :: slots) lexemes = fill slots lexemes := by
  simp [fill, Slot.fill, avoids]

/-- A look at what is touching is passed only where the test fails. -/
theorem fill_notTouching_eq_some :
    fill (.notTouching test :: slots) lexemes = some rest ↔
      Avoids test lexemes ∧ fill slots lexemes = some rest := by
  by_cases avoids : Avoids test lexemes
  · simp [fill, Slot.fill, avoids]
  · simp [fill, Slot.fill, avoids]

end Filling

section Solids

/-- The lexemes that slots take, white space aside. -/
def solids (slots : List Slot) : List Lexeme :=
  -- Gaps and looks ahead leave no trace.
  strip (slots.filterMap Slot.lexeme?)

/-- No slots have no solid lexeme. -/
@[simp] theorem solids_nil : solids [] = [] := rfl

/-- Slots give their lexemes one part after the other. -/
@[simp] theorem solids_append : solids (slots ++ others) = solids slots ++ solids others := by
  simp [solids]

/-- Gaps take no lexeme. -/
@[simp] theorem solids_gap : solids (.gap :: slots) = solids slots := rfl

/-- Blanks take no lexeme. -/
@[simp] theorem solids_blank : solids (.blank :: slots) = solids slots := rfl

/-- Looks ahead take no lexeme. -/
@[simp] theorem solids_notBefore : solids (.notBefore test :: slots) = solids slots := rfl

/-- Looks at what touches take no lexeme. -/
@[simp] theorem solids_notTouching : solids (.notTouching test :: slots) = solids slots := rfl

/-- A slot for a lexeme takes it. -/
theorem solids_token (solid : lexeme ≠ .space) :
    solids (.token lexeme :: slots) = lexeme :: solids slots :=
  strip_cons solid

/-- A slot takes its lexeme and white space. -/
private theorem strip_of_slot {slot : Slot} (filled : slot.fill lexemes = some after) :
    strip lexemes = solids [slot] ++ strip after := by
  cases slot with
  | token lexeme =>
    cases lexemes with
    | nil => simp [Slot.fill] at filled
    | cons first lexemes =>
      simp only [Slot.fill, List.head?_cons, Option.some.injEq, List.tail_cons,
        Option.ite_none_right_eq_some] at filled
      obtain ⟨rfl, rfl⟩ := filled
      rw [← List.singleton_append, strip_append]
      rfl
  -- A gap or a blank takes white space only, which is left out on both sides.
  | gap =>
    obtain rfl := Option.some.inj filled
    exact strip_skip.symm
  | blank =>
    simp only [Slot.fill, Option.ite_none_right_eq_some, Option.some.injEq] at filled
    obtain ⟨_, rfl⟩ := filled
    exact strip_skip.symm
  -- A look takes nothing at all.
  | notBefore test =>
    simp only [Slot.fill, Option.ite_none_right_eq_some, Option.some.injEq] at filled
    obtain ⟨_, rfl⟩ := filled
    rfl
  | notTouching test =>
    simp only [Slot.fill, Option.ite_none_right_eq_some, Option.some.injEq] at filled
    obtain ⟨_, rfl⟩ := filled
    rfl

/-- What fills slots is their lexemes, white space and the rest. -/
theorem strip_of_fill (filled : fill slots lexemes = some rest) :
    strip lexemes = solids slots ++ strip rest := by
  induction slots generalizing lexemes with
  | nil =>
    obtain rfl := Option.some.inj filled
    rfl
  | cons slot slots ih =>
    obtain ⟨after, first, others⟩ := Option.bind_eq_some_iff.1 filled
    rw [strip_of_slot first, ih others, ← List.append_assoc, ← solids_append]
    rfl

end Solids

section Plain

/-- Slots without the looks ahead. -/
def plain (slots : List Slot) : List Slot :=
  -- What is left depends on the white space between lexemes and not on what follows.
  slots.filter (!·.looksAhead)

/-- Nothing is left of no slots. -/
@[simp] theorem plain_nil : plain [] = [] := rfl

/-- A slot for a lexeme stays. -/
@[simp] theorem plain_token : plain (.token lexeme :: slots) = .token lexeme :: plain slots := rfl

/-- A gap stays. -/
@[simp] theorem plain_gap : plain (.gap :: slots) = .gap :: plain slots := rfl

/-- A look ahead is left out. -/
@[simp] theorem plain_notBefore : plain (.notBefore test :: slots) = plain slots := rfl

/-- A look at what touches stays. -/
@[simp] theorem plain_notTouching :
    plain (.notTouching test :: slots) = .notTouching test :: plain slots := rfl

/-- Looks ahead are left out of each of two parts. -/
@[simp] theorem plain_append : plain (slots ++ others) = plain slots ++ plain others :=
  List.filter_append slots others

/-- Leaving out looks ahead leaves all lexemes. -/
theorem solids_plain : solids (plain slots) = solids slots := by
  induction slots with
  | nil => rfl
  | cons slot slots ih =>
    rw [← List.singleton_append, solids_append, ← ih]
    -- Only a look ahead is left out, and it takes nothing.
    cases slot with
    | token lexeme => exact @solids_append [.token lexeme] (plain slots)
    | _ => rfl

/-- What fills slots fills them without the looks ahead. -/
theorem fill_plain (filled : fill slots lexemes = some rest) :
    fill (plain slots) lexemes = some rest := by
  induction slots generalizing lexemes with
  | nil => exact filled
  | cons slot slots ih =>
    cases slot with
    -- A look that is passed leaves the lexemes to the slots after it.
    | notBefore test => exact ih (fill_notBefore_eq_some.1 filled).2
    | _ =>
      obtain ⟨after, first, others⟩ := Option.bind_eq_some_iff.1 filled
      exact Option.bind_eq_some_iff.2 ⟨after, first, ih others⟩

end Plain

end SelectSql
