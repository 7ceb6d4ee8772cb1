import SelectSql.Proofs.Finishing.Solid
import SelectSql.Proofs.Twins.Entry

/-!
Reading comes to an end within a bound on nesting as large as the number of tokens left, white space
not counted. Each nested call is made with fewer of them left than the call around it was, and each
round of a loop takes one at least.
-/

namespace SelectSql

open Grammar (Rules rules rules_last)

/-- The parser as long as less is left than a limit; with more left it gives up. -/
def Parsing.below (limit : Nat) (parser : Parsing Lexer α) : Parsing Lexer α := fun lexer =>
  -- Giving up is the one outcome that no reading may have.
  if lexer.solid < limit then parser lexer else .error .exhausted lexer

namespace Grammar

/-- Nested rules that give up unless less is left than a limit. -/
def Rules.below (limit : Nat) (inner : Rules Lexer) : Rules Lexer :=
  -- The bound on the length of lists is as it was.
  ⟨inner.bound, inner.expression.below limit, inner.operand.below limit,
    inner.source.below limit⟩

/-- A rule whose nested calls give up unless less is left than there was when it was called. -/
def Rules.watch (inner : Rules Lexer) (rule : Rules Lexer → Parsing Lexer α) : Parsing Lexer α :=
  -- The limit is what is left at the call itself.
  fun lexer => rule (inner.below lexer.solid) lexer

/-- The rules that may nest in each other up to a bound, each nested call being watched. -/
def watched : Nat → Rules Lexer
  -- Calls at every depth are compared with the call that they are nested in.
  | 0 => rules 0
  | bound + 1 =>
    let inner := watched bound
    ⟨bound + 1, inner.watch expression, inner.watch operand, inner.watch source⟩

end Grammar

open Grammar (watched)

/-- A rule that ends within a bound as large as what is left, each nested call having less left. -/
def Lexer.Bounds (lexer : Lexer) (rule : Rules Lexer → Parsing Lexer α) : Prop :=
  -- The watched calls never give up, so each of them was made with less left.
  ∀ bound, lexer.solid ≤ bound →
    (watched bound).watch rule lexer = rule (rules bound) lexer ∧
      ∀ after, rule (rules bound) lexer ≠ .error .exhausted after

/-- A round of a loop that leaves less than there was, whenever it comes to its end. -/
def Lexer.Advances (lexer : Lexer) (lap : Rules Lexer → Parsing Lexer α) : Prop :=
  -- No bound on nesting is too small here, since a run that gives up has not come to its end.
  ∀ bound value after, lap (rules bound) lexer = .ok value after → after.solid < lexer.solid

/-- How reading ends, whatever has been taken from a text and put back before. -/
structure Lexer.Finishes (lexer : Lexer) : Prop where
  /-- What counts is no more than the tokens left. -/
  counted : lexer.solid ≤ lexer.remaining.length
  /-- Every bound that is no less than what is left gives the one result of reading. -/
  reading : ∀ (entry : Entry) (bound : Nat), lexer.solid ≤ bound →
    entry.parser (rules bound) lexer = Parsing.ranTo (entry.read lexer) ∧
      (watched bound).watch (fun inner => entry.parser inner) lexer =
        Parsing.ranTo (entry.read lexer)
  /-- Calls nested in an expression have less left. -/
  expression : lexer.Bounds Grammar.expression
  /-- Calls nested in an operand have less left. -/
  operand : lexer.Bounds Grammar.operand
  /-- Calls nested in a source have less left. -/
  source : lexer.Bounds Grammar.source
  /-- Calls nested in a statement have less left. -/
  select : lexer.Bounds Grammar.select
  /-- Each projection takes something. -/
  projections : lexer.Advances fun inner => Parsing.itemLap (Grammar.projection inner)
  /-- Each source takes something. -/
  sources : lexer.Advances fun inner => Parsing.itemLap inner.source
  /-- Each expression of a list, of arguments or of a `GROUP BY` takes something. -/
  items : lexer.Advances fun inner => Parsing.itemLap inner.expression
  /-- Each sort key takes something. -/
  keys : lexer.Advances fun inner => Parsing.itemLap (Grammar.sortKey inner)
  /-- Each branch takes something. -/
  branches : lexer.Advances Grammar.branchLap
  /-- Each join takes something. -/
  joins : ∀ bound left further after,
    Grammar.joinLap (rules bound) left lexer = .ok (some further) after → after.solid < lexer.solid

variable {lexer : Lexer} {inner other : Rules Lexer} {bound limit : Nat} {parser : Parsing Lexer α}
  {rule : Rules Lexer → Parsing Lexer α}

section Watching

/-- A watched parser lasts up to its limit. -/
theorem Parsing.SpendsBy.below {cost : Nat} (spends : parser.SpendsBy Lexer.solidGauge bound cost)
    (within : limit ≤ bound) : (parser.below limit).SpendsBy Lexer.solidGauge limit cost := by
  -- With less left than the limit, nothing is watched.
  intro stream few
  rw [Parsing.below, if_pos (show stream.solid < limit from few)]
  exact spends.weaken within (Nat.le_refl cost) stream few

/-- Watched rules last up to their limit. -/
theorem Grammar.Rules.Last.below (lasting : inner.Last Lexer.solidGauge bound)
    (within : limit ≤ bound) : (inner.below limit).Last Lexer.solidGauge limit where
  room := Nat.le_trans within lasting.room
  expression := lasting.expression.below within
  operand := lasting.operand.below within
  source := lasting.source.below within

/-- A rule lasts while its nested calls are watched. -/
theorem Grammar.Rules.Last.watch (lasting : inner.Last Lexer.solidGauge bound)
    (spends : ∀ {inner : Rules Lexer} {bound : Nat}, inner.Last Lexer.solidGauge bound →
      (rule inner).SpendsBy Lexer.solidGauge (bound + 1) 1) :
    (inner.watch rule).SpendsBy Lexer.solidGauge (bound + 1) 1 := by
  intro stream few
  -- The limit of the nested calls is what is left of the stream, so the rule itself has room.
  have within : stream.solid ≤ bound := Nat.le_of_lt_succ few
  exact spends (lasting.below within) stream (Nat.lt_succ_self stream.solid)

/-- The rules last, watched at every depth. -/
theorem Grammar.watched_last (bound : Nat) : (watched bound).Last Lexer.solidGauge bound := by
  -- Each level watches the level below it.
  induction bound with
  | zero => exact rules_last 0
  | succ bound ih =>
    exact ⟨Nat.le_refl _, ih.watch expression_spends, ih.watch operand_spends,
      ih.watch source_spends⟩

/-- A watched parser comes to the same end or gives up. -/
theorem Twins.Alike.below {other : Parsing Lexer α}
    (alike : (Twins.same Lexer).Alike parser other) :
    (Twins.same Lexer).Alike (parser.below limit) other := by
  intro stage stream twin streams
  unfold Parsing.below
  by_cases few : stream.solid < limit
  · rw [if_pos few]
    exact alike stage stream twin streams
  · rw [if_neg few]
    exact .firstExhausted

/-- Watched rules come to the same end or give up. -/
theorem Twins.Nested.below (nested : (Twins.same Lexer).Nested inner other) :
    (Twins.same Lexer).Nested (inner.below limit) other where
  expression := nested.expression.below
  operand := nested.operand.below
  source := nested.source.below

/-- A rule comes to the same end as over other rules, or one of its nested calls gives up. -/
theorem Twins.Nested.watch (nested : (Twins.same Lexer).Nested inner other)
    (alike : ∀ {inner other : Rules Lexer}, (Twins.same Lexer).Nested inner other →
      (Twins.same Lexer).Alike (rule inner) (rule other)) :
    (Twins.same Lexer).Alike (inner.watch rule) (rule other) :=
  -- The limit is another one for each stream.
  fun stage stream => alike nested.below stage stream

/-- The rules come to the same ends, watched or not, whatever the bounds on nesting. -/
theorem Twins.watched_nested (bound most : Nat) :
    (Twins.same Lexer).Nested (watched bound) (rules most) := by
  -- Each level watches the level below it, and below the lowest nothing comes to an end.
  induction bound generalizing most with
  | zero => exact Twins.nested 0 most
  | succ bound ih =>
    cases most with
    | zero => exact ⟨.secondExhausted, .secondExhausted, .secondExhausted⟩
    | succ most =>
      exact ⟨(ih most).watch .expression, (ih most).watch .operand, (ih most).watch .source⟩

/-- A rule that lasts ends within what is left, each nested call having less left. -/
theorem Lexer.bounds_of_spends
    (spends : ∀ {inner : Rules Lexer} {bound : Nat}, inner.Last Lexer.solidGauge bound →
      (rule inner).SpendsBy Lexer.solidGauge (bound + 1) 1)
    (alike : ∀ {inner other : Rules Lexer}, (Twins.same Lexer).Nested inner other →
      (Twins.same Lexer).Alike (rule inner) (rule other)) : lexer.Bounds rule := by
  intro bound enough
  have few : solidGauge.left lexer < bound + 1 := Nat.lt_succ_of_le enough
  -- Neither run gives up, so both come to the same end.
  have ends := (spends (rules_last bound)).ne_exhausted few
  have lasts := ((Grammar.watched_last bound).watch spends).ne_exhausted few
  have agree := (Twins.watched_nested bound bound).watch alike 0 lexer lexer rfl
  exact ⟨Twins.eq_of_agree agree lasts ends, ends⟩

end Watching

section Rounds

variable {lap : Rules Lexer → Parsing Lexer α} {value : α} {after : Lexer}

/-- A round that comes to its end does so under every bound that suffices. -/
theorem Lexer.lap_of_lap {cost : Nat}
    (spends : ∀ {inner : Rules Lexer} {bound : Nat}, inner.Last Lexer.solidGauge bound →
      (lap inner).SpendsBy Lexer.solidGauge bound cost)
    (alike : ∀ {inner other : Rules Lexer}, (Twins.same Lexer).Nested inner other →
      (Twins.same Lexer).Alike (lap inner) (lap other))
    (run : lap (rules bound) lexer = .ok value after) :
    lap (rules (lexer.solid + 1)) lexer = .ok value after := by
  -- The one run has come to its end, and the other has room enough to do so.
  have agree := alike (Twins.nested bound (lexer.solid + 1)) 0 lexer lexer rfl
  have ends := (spends (rules_last (lexer.solid + 1))).ne_exhausted (Nat.lt_succ_self lexer.solid)
  rw [← run]
  refine (Twins.eq_of_agree agree (fun after gave => ?_) ends).symm
  rw [run] at gave
  cases gave

/-- A round that costs something advances. -/
theorem Lexer.advances_of_spends {cost : Nat} (costs : 0 < cost)
    (spends : ∀ {inner : Rules Lexer} {bound : Nat}, inner.Last Lexer.solidGauge bound →
      (lap inner).SpendsBy Lexer.solidGauge bound cost)
    (alike : ∀ {inner other : Rules Lexer}, (Twins.same Lexer).Nested inner other →
      (Twins.same Lexer).Alike (lap inner) (lap other)) : lexer.Advances lap := by
  intro bound value after run
  -- Under a bound that suffices the cost is known.
  have enough := Lexer.lap_of_lap spends alike run
  have taken := (spends (rules_last _)).left_le (Nat.lt_succ_self lexer.solid) enough
  have counted : after.solid + cost ≤ lexer.solid := taken
  omega

/-- A join that is read takes something, namely its right side at least. -/
theorem Lexer.solid_of_joinLap {left further : Node}
    (run : Grammar.joinLap (rules bound) left lexer = .ok (some further) after) :
    after.solid < lexer.solid := by
  -- Finding no join takes nothing, so a round as such costs nothing.
  have spends : ∀ {inner : Rules Lexer} {bound : Nat}, inner.Last Lexer.solidGauge bound →
      (Grammar.joinLap inner left).SpendsBy Lexer.solidGauge bound 0 := by
    intro inner bound lasting
    refine (Parsing.SpendsBy.skipSpace _).bind fun _ => ?_
    refine (Parsing.SpendsBy.accept? _ _).bind fun first? => ?_
    cases first? with
    | none => exact .pure rfl
    | some first =>
      exact ((Grammar.joinRest_spends lasting left first).weaken (Nat.le_refl _)
        (Nat.zero_le 1)).reshape
  have enough := Lexer.lap_of_lap spends (fun nested => .joinLap nested left) run
  -- The steps of the round are taken apart, and the last of them costs something.
  obtain ⟨_, spaced, skipped, steps⟩ := Parsing.bind_eq_ok.1 enough
  obtain ⟨first?, begun, accepted, steps⟩ := Parsing.bind_eq_ok.1 steps
  cases first? with
  | none => cases steps
  | some first =>
    obtain ⟨_, ended, rest, given⟩ := Parsing.bind_eq_ok.1 steps
    cases given
    have skips : Parsing.SpendsBy Lexer.solidGauge (lexer.solid + 1) 0 Parsing.skipSpace :=
      .skipSpace _
    have accepts : Parsing.SpendsBy Lexer.solidGauge (spaced.solid + 1) 0
        (Parsing.accept? Token.joinKind?) := .accept? _ _
    have reads : (Grammar.joinRest (rules (lexer.solid + 1)) left first).SpendsBy
        Lexer.solidGauge (lexer.solid + 1) 1 := Grammar.joinRest_spends (rules_last _) left first
    -- What is left shrinks from step to step.
    have one : spaced.solid ≤ lexer.solid := skips.left_le (Nat.lt_succ_self lexer.solid) skipped
    have two : begun.solid ≤ spaced.solid :=
      accepts.left_le (Nat.lt_succ_self spaced.solid) accepted
    have room : begun.solid < lexer.solid + 1 := by omega
    have three : after.solid + 1 ≤ begun.solid := reads.left_le room rest
    omega

end Rounds

/-- Reading ends within a bound on nesting that is linear in the tokens left, and every larger bound
gives the same result: each nested call and each round of a loop has fewer tokens left, white space
not counted. -/
theorem reading_finishes (lexer : Lexer) : lexer.Finishes where
  counted := lexer.solid_le
  reading entry bound enough := by
    -- The run over the plain rules does not give up, so it gives the result of reading.
    have bounds : lexer.Bounds fun inner => entry.parser inner := Lexer.bounds_of_spends
      (fun lasting => entry.parser_spendsBy lasting fun _ => trivial)
      fun nested stage => (nested.parser stage entry).mono fun _ _ _ holds => holds.1
    obtain ⟨same, ends⟩ := bounds bound enough
    have run := Entry.parser_eq_ranTo_of_ne ends
    exact ⟨run, same.trans run⟩
  expression := Lexer.bounds_of_spends Grammar.expression_spends Twins.Alike.expression
  operand := Lexer.bounds_of_spends Grammar.operand_spends Twins.Alike.operand
  source := Lexer.bounds_of_spends Grammar.source_spends Twins.Alike.source
  select := Lexer.bounds_of_spends Grammar.select_spends Twins.Alike.select
  projections := Lexer.advances_of_spends Nat.one_pos
    (fun lasting => (Grammar.projection_spends lasting).itemLap)
    fun nested => (Twins.Alike.projection nested).itemLap
  sources := Lexer.advances_of_spends Nat.one_pos (fun lasting => lasting.source.itemLap)
    fun nested => nested.source.itemLap
  items := Lexer.advances_of_spends Nat.one_pos (fun lasting => lasting.expression.itemLap)
    fun nested => nested.expression.itemLap
  keys := Lexer.advances_of_spends Nat.one_pos
    (fun lasting => (Grammar.sortKey_spends lasting).itemLap)
    fun nested => (Twins.Alike.sortKey nested).itemLap
  branches := Lexer.advances_of_spends (Nat.succ_pos 2) Grammar.branchLap_spends
    Twins.Alike.branchLap
  joins _ _ _ _ run := Lexer.solid_of_joinLap run

end SelectSql
