import SelectSql.Proofs.Lexical.Boundary
import SelectSql.Proofs.Reading.Entry
import SelectSql.Proofs.RoundTrip
import SelectSql.Proofs.Spelling.Passing

/-!
Statements that were not read from a text. A tree of the right shape is read from its printed form
if every statement inside it stands between parentheses and the front of each is told apart.
-/

namespace SelectSql

variable {statement : Select}

mutual

/-- The sources, or parts of such, with every statement inside between parentheses. -/
inductive SourceSheltered : SourcePart → Node → Prop where
  | table (holder : Option String) (name : String) :
      SourceSheltered .base (.reference holder name)
  | parens {inner : Node} (held : SourceSheltered .source inner) :
      SourceSheltered .base (.parens inner)
  | select {statement : Select} (held : SelectSheltered statement) :
      SourceSheltered .base (.parens (.select statement))
  | ofBase {node : Node} (base : SourceSheltered .base node) : SourceSheltered .member node
  | aliasAs {inner : Node} (base : SourceSheltered .base inner) (name : String) :
      SourceSheltered .member (.aliasAs inner name)
  | aliasBare {inner : Node} (base : SourceSheltered .base inner) (name : String) :
      SourceSheltered .member (.aliasBare inner name)
  | ofMember {node : Node} (member : SourceSheltered .member node) : SourceSheltered .source node
  | join {kind : JoinKind} {left right : Node} {condition : Option Node}
      (before : SourceSheltered .source left) (after : SourceSheltered .member right)
      (under : ∀ node ∈ condition, Formed .expression node) :
      SourceSheltered .source (.join kind left right condition)

/-- The statements that are told apart, with every statement inside between parentheses. -/
inductive SelectSheltered : Select → Prop where
  | clauses {statement : Select} (formed : SelectFormed statement) (told : statement.Told)
      (sources : ∀ items ∈ statement.sources, ∀ item ∈ items, SourceSheltered .source item) :
      SelectSheltered statement

end

mutual

/-- Every look of a sheltered source passes before what ends it; a member needs no end. -/
theorem SourceSheltered.passes {part : SourcePart} {node : Node}
    (sheltered : SourceSheltered part node) {next : Option Lexeme}
    (ends : part = .source → ∀ lexeme ∈ next, lexeme.endsSource = true) :
    Passes next node.sourceSlots := by
  -- A closing parenthesis comes after whatever stands between parentheses.
  match sheltered with
  | .table none _ | .table (some _) _ => trivial
  | .parens held =>
    exact passes_parens (held.passes fun _ => by simp [Lexeme.endsSource, Lexeme.closes])
  | .select held => exact passes_parens (held.passes (by simp))
  | .ofBase base => exact base.passes (by simp)
  -- A name ends its member, so nothing more is asked of what comes next.
  | .aliasAs base _ => exact passes_append.2 ⟨base.passes (by simp), trivial⟩
  | .aliasBare base _ => exact passes_append.2 ⟨base.passes (by simp), trivial⟩
  | .ofMember member => exact member.passes (by simp)
  -- What comes after a join must not go on with its condition, or supply the one it lacks.
  | .join before after under =>
    exact passes_join (fun _ ends => before.passes fun _ => ends) (fun _ => after.passes (by simp))
      under (ends rfl)

/-- Every look of a sheltered statement passes before a closing parenthesis and at the end. -/
theorem SelectSheltered.passes {statement : Select} (sheltered : SelectSheltered statement)
    {next : Option Lexeme} (closing : ∀ lexeme ∈ next, lexeme = .mark .closeParen) :
    Passes next statement.slots := by
  match sheltered with
  -- Everything but the sources passes as in any statement that is told apart.
  | .clauses formed told sources =>
    refine passes_select formed told ?_ closing
    -- The looks of a source see what closes it, and its own statements do not see that far.
    intro items given item among next closes
    have inner := (sources items given item among).passes fun _ lexeme first =>
      (Lexeme.of_closes (closes lexeme first)).2.1
    exact passes_padSource inner closes

end

section Printed

/-- The statement of one word, or of that and `DISTINCT`. -/
def Select.bare (distinct : Bool) : Select :=
  ⟨distinct, none, none, none, none, none, none, none⟩

/-- A bare statement has the shape of one, and every look of it passes at the end. -/
theorem Select.bare_formed (distinct : Bool) :
    SelectFormed (bare distinct) ∧ Passes none (bare distinct).slots := by
  -- Every clause is absent, so there is none whose shape is in question.
  have formed : SelectFormed (bare distinct) := by
    constructor <;> simp [bare]
  refine ⟨formed, ?_⟩
  cases distinct <;> simp [bare, Select.slots, projectionSlots, sourceList?, clauseSlots]

/--
Every sheltered statement, and every bare one, is read from its printed form in each layout, however
the tree was made.
-/
theorem format_read (options : FormatOptions)
    (shaped : SelectSheltered statement ∨ ∃ distinct, statement = .bare distinct) :
    parseStatement (statement.format options) = .ok statement ∧
      parseSelect (statement.format options) = .ok statement := by
  -- Either the statement is told apart, or nothing follows its one or two words.
  have whole : SelectFormed statement ∧ Passes none statement.slots := by
    rcases shaped with ⟨formed, told, sources⟩ | ⟨distinct, rfl⟩
    · exact ⟨formed, (SelectSheltered.clauses formed told sources).passes (by simp)⟩
    · exact Select.bare_formed distinct
  obtain ⟨formed, passes⟩ := whole
  -- The printed form fills the slots, and what the statement must not be followed by is absent.
  have fits := formed.fits options
  have covers :
      Covers (.gap :: statement.slots) (shown (statement.pieces options.projections .top)) :=
    fill_of_passes fits.filled (by simpa using passes)
  have shows := shows_concat fits.legible
  rw [← Select.format_eq] at shows
  exact ⟨parseStatement_eq_ok.2 ⟨formed, _, shows, covers⟩,
    parseSelect_eq_ok.2 ⟨formed, _, shows, covers⟩⟩

/-- A named projection, a join and a statement inside it are read from their printed form. -/
theorem format_read_nested :
    let inner : Select := { Select.bare true with projections := some [.literal "*"] }
    let source : Node :=
      .join .left (.reference none "t") (.aliasBare (.parens (.select inner)) "q") none
    let statement : Select :=
      { Select.bare false with
        projections := some [.aliasAs (.reference none "a") "x"], sources := some [source] }
    SelectSheltered statement ∧
      parseStatement (statement.format ⟨.wrap⟩) = .ok statement := by
  intro inner source statement
  have atom : ∀ node, Formed .atom node → Formed .expression node := fun node atom =>
    .ofPredicate (.ofOperand (.ofSuffixed (.ofIndexed (.ofAtom atom))))
  have star := atom _ (.literal (Or.inr (Or.inr rfl)))
  have item := atom _ (.reference (show IsName "a" by decide +kernel))
  have innerFormed : SelectFormed inner := by
    constructor <;> simp [inner, Select.bare, Projected.plain star]
  have formed : SelectFormed statement := by
    have projected : Projected (.aliasAs (.reference none "a") "x") :=
      .named item (by decide +kernel)
    have under : SourceFormed .source (.select inner) := .ofMember (.ofBase (.select innerFormed))
    have joined : SourceFormed .source source :=
      .join (.ofMember (.ofBase (.table (by decide +kernel))))
        (.aliasBare (.parens under) (by decide +kernel)) (by simp)
    constructor <;> simp [statement, Select.bare, projected, joined]
  -- The inner statement stands between parentheses, and each of the two is told apart.
  have sheltered : SelectSheltered statement := by
    have innerTold : inner.Told := by
      constructor <;> simp [inner, Select.bare]
    have held : SelectSheltered inner :=
      .clauses innerFormed innerTold (by simp [inner, Select.bare])
    have joined : SourceSheltered .source source :=
      .join (.ofMember (.ofBase (.table none "t"))) (.aliasBare (.select held) "q") (by simp)
    have told : statement.Told := by
      constructor <;> simp [statement, Node.unnamed, Node.leading]
    exact .clauses formed told (by simp [statement, joined])
  exact ⟨sheltered, (format_read ⟨.wrap⟩ (Or.inl sheltered)).1⟩

end Printed

end SelectSql
