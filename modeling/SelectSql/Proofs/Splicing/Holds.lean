import SelectSql.Proofs.Lexical.Scans
import SelectSql.Proofs.Printing.Legible
import SelectSql.Proofs.Reading.Entry
import SelectSql.Proofs.Spelling.Ahead
import SelectSql.Proofs.Spelling.Induction

/-!
Texts against the slots of a spelling. A text holds slots if it splits into lexemes that fill them,
and it is put together from its end to its front: words, white space and texts that were accepted.
-/

namespace SelectSql

/-- Characters that split into lexemes that fill slots to the end, looks ahead left out. -/
def Holds (slots : List Slot) (chars : List Char) : Prop :=
  -- White space of two parts that meet is counted twice, and read as one.
  ∃ lexemes, Scans chars (squeeze lexemes) [] ∧ fill (plain slots) lexemes = some []

variable {slots others inner ending : List Slot} {chars taken first : List Char}
  {lexeme : Lexeme} {lexemes : List Lexeme} {test : Lexeme → Bool}

namespace Holds

/-- Where nothing is left, a gap is held. -/
theorem done : Holds [.gap] [] :=
  ⟨[], .done, rfl⟩

/-- Looks ahead do not matter. -/
theorem congr (holds : Holds slots chars) (same : plain slots = plain others) :
    Holds others chars := by
  obtain ⟨lexemes, scans, filled⟩ := holds
  exact ⟨lexemes, scans, by rw [← same, filled]⟩

/-- A gap may be left twice. -/
theorem gap_gap : Holds (.gap :: .gap :: slots) chars ↔ Holds (.gap :: slots) chars := by
  have same : ∀ lexemes, fill (plain (.gap :: .gap :: slots)) lexemes =
      fill (plain (.gap :: slots)) lexemes := by
    intro lexemes
    show fill (plain slots) (skip (skip lexemes)) = fill (plain slots) (skip lexemes)
    rw [skip_skip]
  simp only [Holds, same]

/-- A gap may be left before slots that begin with one. -/
theorem gap_iff (leads : ∃ more, slots = .gap :: more) :
    Holds (.gap :: slots) chars ↔ Holds slots chars := by
  obtain ⟨more, rfl⟩ := leads
  exact gap_gap

/-- White space may be left out before a lexeme. -/
theorem gap_token (solid : lexeme ≠ .space) (holds : Holds (.token lexeme :: slots) chars) :
    Holds (.gap :: .token lexeme :: slots) chars := by
  obtain ⟨_, scans, filled⟩ := holds
  -- The lexemes begin with the one that is taken, so the gap takes nothing.
  obtain ⟨lexemes, rfl, left⟩ := fill_token_eq_some.1 filled
  refine ⟨lexeme :: lexemes, scans, ?_⟩
  show fill (plain (.token lexeme :: slots)) (skip (lexeme :: lexemes)) = some []
  rw [skip_cons solid, filled]

/-- A blank is taken by the gap in front. -/
theorem blank {char : Char} (blank : isBlank char = true) (holds : Holds (.gap :: slots) chars) :
    Holds (.gap :: slots) (char :: chars) := by
  obtain ⟨lexemes, scans, filled⟩ := holds
  refine ⟨.space :: lexemes, ?_, filled⟩
  have whole := @Scans.blanks _ [char] _ (by simp) (by simpa using blank) scans
  simpa using whole

/-- A blank is not the lexeme that must not touch. -/
theorem notTouching {char : Char} (blank : isBlank char = true) (fails : test .space = false)
    (holds : Holds slots (char :: chars)) : Holds (.notTouching test :: slots) (char :: chars) := by
  obtain ⟨lexemes, scans, filled⟩ := holds
  refine ⟨lexemes, scans, ?_⟩
  have space : lexemes.head? = some .space := by
    rw [← head?_squeeze]
    exact scans.head?_eq_space.2 ⟨char, rfl, blank⟩
  show fill (.notTouching test :: plain slots) lexemes = some []
  rw [fill_notTouching, filled]
  intro lexeme begins
  rw [Option.mem_def, space] at begins
  rw [← Option.some.inj begins, fails]

/-- A lexeme is taken by its slot. -/
theorem read {kind : TokenKind} (found : readLexeme (taken ++ chars) = .lexeme kind taken chars)
    (same : kind.lexeme taken = lexeme) (solid : lexeme ≠ .space) (holds : Holds slots chars) :
    Holds (.token lexeme :: slots) (taken ++ chars) := by
  obtain ⟨lexemes, scans, filled⟩ := holds
  -- The token is read off the front, and squeezing leaves it in place.
  subst same
  refine ⟨_ :: lexemes, ?_, fill_token.trans filled⟩
  rw [squeeze_cons solid]
  exact .token found scans

/-- What is written for a lexeme is taken by its slot, if it ends there. -/
theorem token (written : lexeme.Written taken) (solid : lexeme ≠ .space)
    (stop : ∀ char ∈ chars.head?, lexeme.endsAt char = true) (holds : Holds slots chars) :
    Holds (.token lexeme :: slots) (taken ++ chars) := by
  obtain ⟨kind, found, same⟩ := Lexeme.readLexeme_of_written written stop
  exact holds.read found (same ⟨0, 0⟩) solid

/-- An opening parenthesis ends wherever it stands. -/
theorem openParen (holds : Holds slots chars) :
    Holds (.mark .openParen :: slots) ('(' :: chars) := by
  have found : readLexeme (['('] ++ chars) = .lexeme .mark ['('] chars :=
    readLexeme_append_eq.2 ⟨⟨.openParen, rfl⟩, by simp, by simp⟩
  exact holds.read found rfl (by simp)

/-- A keyword ends at a blank. -/
theorem word (word : Keyword) (holds : Holds slots (' ' :: chars)) :
    Holds (.gap :: .keyword word :: slots) (word.capitals.toList ++ ' ' :: chars) :=
  gap_token (by simp) (token rfl (by simp) (by simp; rfl) holds)

/-- A keyword is held between blanks. -/
theorem keyword (word : Keyword) (holds : Holds slots (' ' :: chars)) :
    Holds (.gap :: .keyword word :: slots) (' ' :: (word.capitals.toList ++ ' ' :: chars)) :=
  (holds.word word).blank rfl

/-- A text that fills slots by itself fills them before more, if that seals it. -/
theorem splice {marks : List Mark} (heeds : ∀ slot ∈ inner, slot.Heeds marks)
    (scans : Scans first lexemes []) (covers : Covers inner lexemes) (seals : Seals chars)
    (apart : ∀ sign ∈ marks, ahead none slots ≠ some (.mark sign))
    (holds : Holds (.gap :: slots) chars) : Holds (inner ++ .gap :: slots) (first ++ chars) := by
  obtain ⟨more, following, filled⟩ := holds
  -- The slots tell which lexeme comes first after the text.
  have clear : ∀ sign ∈ marks, (strip more).head? ≠ some (.mark sign) := by
    intro sign member
    rw [head?_strip, head?_skip_of_fill filled, ahead, solids_plain]
    exact apart sign member
  refine ⟨lexemes ++ more, ?_, ?_⟩
  · have whole := scans.append following seals
    rwa [squeeze_append_squeeze] at whole
  · have shape : plain (inner ++ .gap :: slots) = (plain inner ++ [.gap]) ++ plain slots := by
      simp
    rw [shape, fill_append_of (fill_followed heeds covers clear)]
    exact filled

/-- Items are held with commas between them if each is, before a comma or at the end. -/
theorem commaList {α : Type} {items : List α} {each : α → List Slot} {print : α → List Char}
    (nonempty : items ≠ []) (leads : ∀ item ∈ items, ∃ more, each item = .gap :: more)
    (before : ∀ item ∈ items, ∀ slots chars, Holds (.mark .comma :: slots) (',' :: chars) →
      Holds (each item ++ .mark .comma :: slots) (print item ++ ',' :: chars))
    (last : ∀ item ∈ items.getLast?, Holds (each item ++ (ending ++ slots)) (print item ++ chars)) :
    Holds (commaSlots ending (items.map each) ++ slots)
      (List.intercalate [',', ' '] (items.map print) ++ chars) := by
  induction items with
  | nil => exact absurd rfl nonempty
  | cons item items ih =>
    cases items with
    | nil =>
      have held := last item rfl
      simpa [commaSlots] using held
    | cons next items =>
      have held := ih (by simp) (fun item member => leads item (by simp [member]))
        (fun item member => before item (by simp [member])) (by simpa using last)
      have each_leads : ∀ slots ∈ (next :: items).map each, ∃ more, slots = .gap :: more := by
        rw [List.forall_mem_map]
        exact fun other among => leads other (List.mem_cons_of_mem _ among)
      obtain ⟨more, begins⟩ := @leads_commaSlots ending _ (by simp) each_leads
      rw [begins] at held
      -- The blank after the comma is taken by the gap before the next item.
      have comma : Holds (.mark .comma :: (.gap :: more ++ slots)) (',' :: ' ' ::
          (List.intercalate [',', ' '] ((next :: items).map print) ++ chars)) :=
        @Holds.token _ _ [','] (.mark .comma) rfl (by simp) (by simp; rfl) (held.blank rfl)
      have whole := before item (by simp) _ _ comma
      rw [← begins] at whole
      simpa [commaSlots, List.intercalate_cons_cons] using whole

end Holds

section Whole

variable {text : String}

/-- A text that holds slots shows lexemes that cover them, if all looks pass at the end. -/
theorem Holds.covers {marks : List Mark} (holds : Holds (slots ++ [.gap]) chars)
    (spelled : text.toList = chars) (heeds : ∀ slot ∈ slots, slot.Heeds marks)
    (passes : Passes none slots) :
    ∃ lexemes, (Lexer.ofText text).Shows lexemes none ∧ Covers slots lexemes := by
  obtain ⟨lexemes, scans, filled⟩ := holds
  -- The looks ahead were left out, and with them what they could heed.
  have heeds : ∀ slot ∈ plain (slots ++ [.gap]), slot.Heeds marks := by
    intro slot member
    rcases List.mem_append.1 (List.mem_filter.1 member).1 with member | member
    · exact heeds slot member
    · rw [List.mem_singleton.1 member]
      trivial
  subst spelled
  refine ⟨squeeze lexemes, shows_iff_scans.2 scans, ?_⟩
  apply fill_of_passes
  · rw [fill_squeeze heeds, filled]
    rfl
  · simpa using passes

/-- A text that holds the spelling of a statement is read as that, if all looks pass. -/
theorem parseStatement_of_holds {statement : Select} (formed : SelectFormed statement)
    (passes : Passes none statement.slots)
    (holds : Holds (.gap :: statement.slots ++ [.gap]) chars) (spelled : text.toList = chars) :
    parseStatement text = .ok statement := by
  have heeds : ∀ slot ∈ Slot.gap :: statement.slots, slot.Heeds [.openParen, .dot, .comma] := by
    simpa using statement.heeds
  exact parseStatement_eq_ok.2 ⟨formed, holds.covers spelled heeds passes⟩

/-- A text that holds the spelling of a source is read as that, if all looks pass. -/
theorem parseSource_of_holds {node : Node} (formed : SourceFormed .source node)
    (passes : Passes none node.paddedSource)
    (holds : Holds (node.paddedSource ++ [.gap]) chars) (spelled : text.toList = chars) :
    parseSource text = .ok node :=
  parseSource_eq_ok.2 ⟨formed, holds.covers spelled node.heeds_source passes⟩

end Whole

end SelectSql
