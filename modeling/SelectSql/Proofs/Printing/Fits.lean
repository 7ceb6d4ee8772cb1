import SelectSql.Layout.Form
import SelectSql.Proofs.Printing.Legible

/-!
Printed pieces against the slots of a spelling. Pieces fit slots if they are legible and what they
show fills the slots to the end; a printed form is built from its end to its front, piece by piece.
-/

namespace SelectSql

/-- Pieces that are legible and fill slots to the end, looks ahead left out. -/
structure Fits (slots : List Slot) (pieces : List Piece) : Prop where
  /-- No two neighbours run into each other. -/
  legible : Legible pieces
  /-- Every lexeme has its slot, and white space stands only where there is room for it. -/
  filled : fill (plain slots) (shown pieces) = some []

/-- Whether a lexeme may come right after an expression. -/
def Lexeme.breaks : Lexeme → Bool
  | space => true
  | symbol (.mark sign) =>
    sign ∈ [Mark.closeParen, .closeBracket, .comma, .openBracket, .doubleColon]
  | _ => false

/-- Pieces that may come right after an expression. -/
def Breaks (pieces : List Piece) : Prop :=
  -- Nothing at all may follow as well.
  ∀ next ∈ pieces.head?, next.lexeme.breaks = true

/-- Pieces that may come right after a mark. -/
def Opens (pieces : List Piece) : Prop :=
  -- The marks that could lengthen another never follow one in printed text.
  ∀ next ∈ pieces.head?, ∀ sign, (Lexeme.mark sign).mayTouch next.lexeme = true

/-- Pieces that spell slots before anything that may come after them. -/
def Prints (slots : List Slot) (pieces : List Piece) : Prop :=
  ∀ others rest, Breaks rest → Fits (.gap :: others) rest →
    Fits (.gap :: slots ++ others) (pieces ++ rest)

variable {slots others : List Slot} {piece : Piece} {pieces rest : List Piece} {lexeme : Lexeme}

section Neighbours

/-- White space may come after an expression. -/
theorem breaks_blank (blank : piece.isBlank = true) : Breaks (piece :: rest) := by
  intro next first
  obtain rfl : piece = next := Option.some.inj first
  cases piece <;> first | rfl | cases blank

/-- What may come after an expression may touch any lexeme. -/
theorem Lexeme.mayTouch_of_breaks {next : Lexeme} (breaks : next.breaks = true) :
    lexeme.mayTouch next = true := by
  -- White space may touch all, and none of the marks that close or join could lengthen another.
  cases next with
  | space => rcases lexeme with (_ | _) | _ | _ | _ | _ <;> rfl
  | symbol terminal =>
    cases terminal with
    | keyword word => cases breaks
    | mark sign =>
      rcases lexeme with (_ | _) | _ | _ | _ | _ <;> cases sign <;> first | rfl | cases breaks
  | _ => cases breaks

/-- What may come after an expression may come after a mark. -/
theorem Breaks.opens (breaks : Breaks rest) : Opens rest := by
  intro next first sign
  exact Lexeme.mayTouch_of_breaks (breaks next first)

/-- A lexeme that begins an expression may come after a mark. -/
theorem opens_of_starts (starts : piece.lexeme.starts = true) : Opens (piece :: rest) := by
  intro next first sign
  obtain rfl : piece = next := Option.some.inj first
  revert starts
  -- Of the marks that begin an expression none is an equality sign or a greater sign.
  cases piece.lexeme with
  | symbol terminal =>
    cases terminal with
    | keyword word =>
      intro _
      rfl
    | mark other => cases other <;> intro starts <;> first | rfl | cases starts
  | space | foreign =>
    intro starts
    cases starts
  | _ =>
    intro _
    rfl

end Neighbours

namespace Fits

/-- Where all is read, nothing is left to print. -/
theorem done : Fits [.gap] [] :=
  ⟨trivial, rfl⟩

/-- A look ahead may come after a gap. -/
theorem gap_notBefore (test : Lexeme → Bool) (fits : Fits (.gap :: slots) pieces) :
    Fits (.gap :: .notBefore test :: slots) pieces :=
  ⟨fits.legible, fits.filled⟩

/-- A gap may be left twice. -/
theorem gap_gap (fits : Fits (.gap :: slots) pieces) : Fits (.gap :: .gap :: slots) pieces := by
  refine ⟨fits.legible, ?_⟩
  show fill (plain slots) (skip (skip (shown pieces))) = some []
  rw [skip_skip]
  exact fits.filled

/-- A gap left twice is left once. -/
theorem of_gap_gap (fits : Fits (.gap :: .gap :: slots) pieces) : Fits (.gap :: slots) pieces := by
  refine ⟨fits.legible, ?_⟩
  have filled : fill (plain slots) (skip (skip (shown pieces))) = some [] := fits.filled
  rw [skip_skip] at filled
  exact filled

/-- White space is legible before anything. -/
private theorem legible_blank (blank : piece.isBlank = true) (legible : Legible pieces) :
    Legible (piece :: pieces) := by
  -- White space holds no text of a tree and runs into nothing.
  refine ⟨?_, ?_, legible⟩
  · cases piece <;> trivial
  · intro next _
    cases piece <;> first | rfl | cases blank

/-- White space is printed in a gap. -/
theorem gap_blank (blank : piece.isBlank = true) (fits : Fits (.gap :: slots) pieces) :
    Fits (.gap :: slots) (piece :: pieces) := by
  refine ⟨legible_blank blank fits.legible, ?_⟩
  show fill (plain slots) (skip (shown (piece :: pieces))) = some []
  -- More white space in a gap is skipped with the rest.
  rw [shown_blank blank, skip_space, skip_skip]
  exact fits.filled

/-- A space is printed in a gap. -/
theorem space (fits : Fits (.gap :: slots) pieces) : Fits (.gap :: slots) (.space :: pieces) :=
  fits.gap_blank rfl

/-- A new line is begun in a gap. -/
theorem line (indent : Nat) (fits : Fits (.gap :: slots) pieces) :
    Fits (.gap :: slots) (.line indent :: pieces) :=
  fits.gap_blank rfl

/-- A space is printed where white space must stand. -/
theorem blank_space (fits : Fits (.gap :: slots) pieces) :
    Fits (.blank :: slots) (.space :: pieces) := by
  refine ⟨legible_blank rfl fits.legible, ?_⟩
  show fill (.blank :: plain slots) (shown (.space :: pieces)) = some []
  -- The blank is filled by the space, and what is left has no white space in front.
  rw [shown_blank rfl, fill_blank, skip_skip]
  exact fits.filled

/-- A lexeme is printed in its slot. -/
theorem token (piece : Piece) (sound : piece.Sound) (solid : piece.isBlank = false)
    (apart : ∀ next ∈ pieces.head?, piece.lexeme.mayTouch next.lexeme = true)
    (fits : Fits slots pieces) : Fits (.token piece.lexeme :: slots) (piece :: pieces) := by
  -- To be legible the piece must not run into the next one; to fit it must show its own lexeme.
  refine ⟨⟨sound, apart, fits.legible⟩, ?_⟩
  show fill (.token piece.lexeme :: plain slots) (shown (piece :: pieces)) = some []
  rw [shown_solid solid, fill_token]
  exact fits.filled

/-- No gap is seen before a lexeme. -/
private theorem fill_gap_solid (sound : piece.Sound) (solid : piece.isBlank = false) :
    fill (.gap :: slots) (shown (piece :: pieces)) = fill slots (shown (piece :: pieces)) := by
  -- Only white space is shown as a space.
  have other : piece.lexeme ≠ .space := by
    intro same
    rw [(Piece.lexeme_eq_space sound).1 same] at solid
    cases solid
  rw [fill_gap, shown_solid solid, skip_cons other]

/-- A lexeme needs no white space before it. -/
theorem gap_solid (sound : piece.Sound) (solid : piece.isBlank = false)
    (fits : Fits slots (piece :: pieces)) : Fits (.gap :: slots) (piece :: pieces) :=
  ⟨fits.legible, (fill_gap_solid sound solid).trans fits.filled⟩

/-- A lexeme that could have white space before it may do without. -/
theorem of_gap_solid (sound : piece.Sound) (solid : piece.isBlank = false)
    (fits : Fits (.gap :: slots) (piece :: pieces)) : Fits slots (piece :: pieces) :=
  ⟨fits.legible, (fill_gap_solid sound solid).symm.trans fits.filled⟩

/-- A look at what touches a lexeme passes before white space and before other lexemes. -/
theorem notTouching {test : Lexeme → Bool}
    (avoids : ∀ next ∈ pieces.head?, test next.lexeme = false) (fits : Fits slots pieces) :
    Fits (.notTouching test :: slots) pieces := by
  refine ⟨fits.legible, ?_⟩
  show fill (.notTouching test :: plain slots) (shown pieces) = some []
  rw [fill_notTouching]
  · exact fits.filled
  · -- The first lexeme that is shown is that of the first piece.
    intro lexeme first
    rw [head?_shown] at first
    obtain ⟨next, found, rfl⟩ := Option.map_eq_some_iff.1 first
    exact avoids next found

/-- A lexeme is printed in its slot before anything that may come after an expression. -/
theorem closing (piece : Piece) (sound : piece.Sound) (solid : piece.isBlank = false)
    (breaks : Breaks pieces) (fits : Fits slots pieces) :
    Fits (.token piece.lexeme :: slots) (piece :: pieces) := by
  refine token piece sound solid ?_ fits
  intro next first
  exact Lexeme.mayTouch_of_breaks (breaks next first)

/-- A lexeme is printed in its slot after a gap. -/
theorem last (piece : Piece) (sound : piece.Sound) (solid : piece.isBlank = false)
    (breaks : Breaks pieces) (fits : Fits slots pieces) :
    Fits (.gap :: .token piece.lexeme :: slots) (piece :: pieces) :=
  gap_solid sound solid (closing piece sound solid breaks fits)

/-- A keyword is printed before a space. -/
theorem keyword (word : Keyword) (fits : Fits (.gap :: slots) pieces) :
    Fits (.gap :: .keyword word :: .gap :: slots) (.keyword word :: .space :: pieces) :=
  last (.keyword word) trivial rfl (breaks_blank rfl) fits.space

/-- A mark is printed before whatever does not lengthen it. -/
theorem mark (sign : Mark) (opens : Opens pieces) (fits : Fits slots pieces) :
    Fits (.gap :: .mark sign :: slots) (.mark sign :: pieces) := by
  -- No white space is printed in front of the mark.
  apply gap_solid (by trivial) rfl
  exact token (.mark sign) trivial rfl (fun next first => opens next first sign) fits

end Fits

namespace Prints

/-- What prints slots prints them before more, with a gap between. -/
theorem followed (prints : Prints (slots ++ [.gap]) pieces) (breaks : Breaks rest)
    (fits : Fits (.gap :: others) rest) :
    Fits (.gap :: (slots ++ .gap :: others)) (pieces ++ rest) := by
  have printed := prints others rest breaks fits
  rw [List.cons_append, List.append_assoc] at printed
  exact printed

/-- An expression is printed before more with the white space around it. -/
theorem padded (prints : Prints (slots ++ [.gap]) pieces) (limit : Tier) (node : Node)
    (breaks : Breaks rest) (fits : Fits (.gap :: others) rest) :
    Fits (SelectSql.pad limit node slots ++ others) (pieces ++ rest) := by
  simp only [SelectSql.pad, List.cons_append, List.append_assoc]
  -- The look ahead stands in the gap after the expression.
  exact prints.followed breaks (fits.gap_notBefore _)

/-- An expression is printed with the white space around it. -/
theorem pad (prints : Prints (slots ++ [.gap]) pieces) (limit : Tier) (node : Node) :
    Prints (pad limit node slots) pieces := by
  intro others rest breaks fits
  exact (prints.padded limit node breaks fits).gap_gap

variable {α : Type} {items : List α} {each : α → List Slot} {print : α → List Piece}
  {ending : List Slot} {separator : Piece}

/-- A gap may come first. -/
theorem gap (prints : Prints slots pieces) : Prints (.gap :: slots) pieces := by
  intro others rest breaks fits
  exact (prints others rest breaks fits).gap_gap

/-- Items are printed with commas between them if each is, before a comma or at the end. -/
theorem fits_commaSlots (blank : separator.isBlank = true) (nonempty : items ≠ [])
    (leads : ∀ item ∈ items, ∃ more, each item = .gap :: more)
    (before : ∀ item ∈ items, ∀ others rest, Fits (.mark .comma :: others) (.mark .comma :: rest) →
      Fits (.gap :: each item ++ .mark .comma :: others) (print item ++ .mark .comma :: rest))
    (last : ∀ item ∈ items.getLast?,
      Fits (.gap :: each item ++ (ending ++ others)) (print item ++ rest)) :
    Fits (.gap :: commaSlots ending (items.map each) ++ others)
      (List.intercalate [.mark .comma, separator] (items.map print) ++ rest) := by
  -- The induction is on the items: each is printed before the comma and all that follows it.
  induction items with
  | nil => exact absurd rfl nonempty
  | cons item items ih =>
    cases items with
    | nil =>
      have printed := last item rfl
      simpa [commaSlots, List.intercalate] using printed
    | cons next items =>
      -- After the comma the items go on as before, the white space being that of the next one.
      have printed := ih (by simp) (fun item member => leads item (by simp [member]))
        (fun item member => before item (by simp [member])) (by simpa using last)
      -- The other items begin with a gap, into which the white space after the comma falls.
      have each_leads : ∀ slots ∈ (next :: items).map each, ∃ more, slots = .gap :: more := by
        intro slots member
        obtain ⟨other, among, rfl⟩ := List.mem_map.1 member
        exact leads other (List.mem_cons_of_mem _ among)
      obtain ⟨more, begins⟩ := @leads_commaSlots ending _ (by simp) each_leads
      rw [begins] at printed
      have comma : Fits (.mark .comma :: (.gap :: more ++ others)) (.mark .comma :: (separator ::
          (List.intercalate [.mark .comma, separator] ((next :: items).map print) ++ rest))) := by
        apply Fits.token (.mark .comma) trivial rfl
        · intro next first
          exact Lexeme.mayTouch_of_breaks (breaks_blank blank next first)
        · exact printed.of_gap_gap.gap_blank blank
      have whole := before item (by simp) _ _ comma
      rw [← begins] at whole
      simpa [commaSlots, List.intercalate] using whole

/-- A list is printed with commas between its items. -/
theorem commaList (blank : separator.isBlank = true)
    (leads : ∀ item ∈ items, ∃ more, each item = .gap :: more)
    (prints : ∀ item ∈ items, Prints (each item) (print item)) :
    Prints (commaSlots noComma (items.map each))
      (List.intercalate [.mark .comma, separator] (items.map print)) := by
  intro others rest breaks fits
  -- An empty list has neither pieces nor slots.
  by_cases empty : items = []
  · subst empty
    exact fits
  · apply fits_commaSlots blank empty leads
    · intro item member others rest fits
      -- A comma may touch the item before it.
      have comma : Breaks (.mark .comma :: rest) := by
        intro next first
        obtain rfl := Option.some.inj first
        rfl
      exact prints item member _ _ comma (fits.gap_solid trivial rfl)
    · intro item last
      exact prints item (List.mem_of_getLast? last) _ _ breaks (fits.gap_notBefore _)

end Prints

end SelectSql
