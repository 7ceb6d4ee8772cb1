import SelectSql.Proofs.Spelling.Induction

/-!
Statements between parentheses. A closing parenthesis is to the statement before it what the end of
input is, unless the statement ends with its first word or with `DISTINCT`.
-/

namespace SelectSql

/-- Whether the last lexeme that slots take may be that of a whole statement. -/
def Finished (slots : List Slot) : Prop :=
  -- A statement may end with its first word, but only at the end of input.
  ∀ lexeme ∈ (solids slots).getLast?, lexeme ≠ .keyword .select ∧ lexeme ≠ .keyword .distinct

/-- Whether slots that pass at the end, and are finished, pass before a closing parenthesis too. -/
def Closable (slots : List Slot) : Prop :=
  Passes none slots → Finished slots → Passes (some (.mark .closeParen)) slots

/-- A look ahead that a closing parenthesis fails is closable. -/
private theorem closable_notBefore {test : Lexeme → Bool}
    (fails : test (.mark .closeParen) = false) : Closable [.notBefore test] := by
  intro _ _
  simpa using fails

/-- Of the looks of a statement only that of a missing projection heeds a closing parenthesis. -/
private theorem closable_steps : StatementSteps Closable where
  nil _ _ := trivial
  append {slots others} first second := by
    intro passes finished
    obtain ⟨passes, behind⟩ := passes_append.1 passes
    cases taken : solids others with
    | nil =>
      -- The second part takes nothing, so the last lexeme is that of the first part.
      have last : Finished slots := by
        rw [Finished, solids_append, taken, List.append_nil] at finished
        exact finished
      have clear : ∀ next, ahead next others = next := by simp [ahead, taken]
      rw [clear] at passes
      rw [passes_append, clear]
      exact ⟨first passes last, second behind (by simp [Finished, taken])⟩
    | cons lexeme lexemes =>
      -- The first part sees the second in both cases, and only the second sees what follows.
      have last : Finished others := by
        rw [Finished, solids_append, taken, List.getLast?_append, List.getLast?_cons,
          Option.some_or, ← List.getLast?_cons, ← taken] at finished
        exact finished
      have same : ahead (some (.mark .closeParen)) others = ahead none others := by
        simp [ahead, taken]
      rw [passes_append, same]
      exact ⟨passes, second behind last⟩
  token _ _ _ _ := trivial
  comma _ _ passes _ := passes
  gap _ _ := trivial
  blank _ _ := trivial
  takes limit node := closable_notBefore rfl
  apart terminal other := closable_notBefore (by simpa using other.symm)
  name _ _ := trivial
  separator _ _ := trivial
  source := closable_notBefore rfl
  member := closable_notBefore rfl
  key options := closable_notBefore (by simp [SortOption.goesOn, Lexeme.direction?])
  touching _ _ _ _ := trivial
  bare distinct := by
    intro _ finished
    -- The last lexeme is the word that begins the statement, or the `DISTINCT` after it.
    cases distinct with
    | false => exact absurd rfl (finished (.keyword .select) rfl).1
    | true => exact absurd rfl (finished (.keyword .distinct) rfl).2

/-- A statement that passes at the end passes before a closing parenthesis, if it is finished. -/
theorem Select.passes_closed {statement : Select} (passes : Passes none statement.slots)
    (finished : Finished statement.slots) :
    Passes (some (.mark .closeParen)) statement.slots :=
  closable_steps.statement statement passes finished

end SelectSql
