import SelectSql.Proofs.Printing.Expression
import SelectSql.Proofs.Spelling.Statement

/-!
The printed form of statements and sources. A statement is printed clause by clause, each on a line
of its own, and the white space between clauses falls into the gaps of the spelling.
-/

namespace SelectSql

variable {α : Type} {layout : ProjectionLayout} {node : Node} {place : Place}
  {slots others : List Slot} {pieces rest : List Piece} {indent : Nat}

section Lines

/-- Pieces that begin with white space, or none. -/
def Ends (pieces : List Piece) : Prop :=
  ∀ next ∈ pieces.head?, next.isBlank = true

/-- White space may come after an expression, and so may nothing. -/
theorem Ends.breaks (ends : Ends rest) : Breaks rest := by
  intro next first
  -- White space is the only thing to be looked at.
  exact @breaks_blank next [] (ends next first) next rfl

/-- White space ends what comes before it. -/
theorem ends_blank {piece : Piece} (blank : piece.isBlank = true) : Ends (piece :: rest) := by
  intro next first
  obtain rfl : piece = next := Option.some.inj first
  exact blank

/-- Keywords in a row are printed with a space between neighbours. -/
theorem Prints.words {words : List Keyword} (nonempty : words ≠ []) :
    Prints (keywordSlots words ++ [.gap]) (Piece.words words) := by
  intro others rest breaks fits
  -- The induction is on the words, of which the last one stands before what comes next.
  induction words with
  | nil => exact absurd rfl nonempty
  | cons word words ih =>
    cases words with
    | nil => exact Fits.last (.keyword word) trivial rfl breaks fits
    | cons next words =>
      have printed := (ih (by simp)).keyword word
      simpa [keywordSlots, Piece.words, Piece.spaced, Piece.keyword] using printed

/-- A line of parts may come after an expression, and so may what follows no line at all. -/
theorem Breaks.ownLine {parts : List (List Piece)} (breaks : Breaks rest) :
    Breaks (SelectSql.ownLine indent parts ++ rest) := by
  -- A line without parts is not printed at all.
  unfold SelectSql.ownLine
  split
  · exact breaks
  · exact breaks_blank rfl

/-- A line begins with white space. -/
theorem Ends.ownLine {parts : List (List Piece)} (ends : Ends rest) :
    Ends (SelectSql.ownLine indent parts ++ rest) := by
  unfold SelectSql.ownLine
  split
  · exact ends
  · exact ends_blank rfl

/-- A clause is printed on a line of its own, if it is there. -/
theorem Fits.clause {word : Keyword} {content : Option α} {each : α → List Slot}
    {print : α → List Piece} (leads : ∀ item ∈ content, ∃ more, each item = .gap :: more)
    (prints : ∀ item ∈ content, Prints (each item) (print item))
    (breaks : Breaks rest) (fits : Fits (.gap :: others) rest) :
    Fits (.gap :: (clauseSlots word (content.map each) ++ others))
      (ownLine indent (announced [word] (content.map print)) ++ rest) := by
  cases content with
  -- An absent clause leaves a look ahead, which printed text need not pass here.
  | none => exact fits.gap_notBefore _
  | some item =>
    have printed := prints item rfl others rest breaks fits
    -- The space after the keyword falls into the gap that the clause begins with.
    obtain ⟨more, begins⟩ := leads item rfl
    rw [begins] at printed
    have line := (printed.of_gap_gap.keyword word).line indent
    simpa [clauseSlots, ownLine, announced, Piece.words, Piece.spaced, Piece.keyword,
      List.intercalate, begins] using line

/-- A clause of two words, the second of them `BY`, is printed in the same way. -/
theorem Fits.byClause {word : Keyword} {content : Option (List α)} {each : α → List Slot}
    {print : α → List Piece} (nonempty : ∀ items ∈ content, items ≠ [])
    (leads : ∀ items ∈ content, ∀ item ∈ items, ∃ more, each item = .gap :: more)
    (prints : ∀ items ∈ content, ∀ item ∈ items, Prints (each item) (print item))
    (breaks : Breaks rest) (fits : Fits (.gap :: others) rest) :
    Fits (.gap ::
        (clauseSlots word (content.map fun items => byListSlots (items.map each)) ++ others))
      (ownLine indent (announced [word, .by_] (content.map fun items =>
        commaList (items.map print))) ++ rest) := by
  cases content with
  | none => exact fits.gap_notBefore _
  | some items =>
    have space : Piece.space.isBlank = true := rfl
    have listed := Prints.commaList space (leads items rfl) (prints items rfl)
    have printed := listed others rest breaks fits
    -- A list that is not empty begins with the gap of its first item.
    obtain ⟨more, begins⟩ : ∃ more, commaSlots noComma (items.map each) = .gap :: more := by
      apply leads_commaSlots (by simpa using nonempty items rfl)
      intro slots member
      obtain ⟨item, among, rfl⟩ := List.mem_map.1 member
      exact leads items rfl item among
    rw [begins] at printed
    have line := ((printed.of_gap_gap.keyword .by_).keyword word).line indent
    simpa [clauseSlots, byListSlots, ownLine, announced, Piece.words, Piece.spaced, Piece.keyword,
      List.intercalate, commaList, commaSpace, begins] using line

/-- A row count is printed after the word that announces it. -/
theorem Fits.rowCount {count : Node} (word : Keyword)
    (prints : Prints (count.spelling ++ [.gap]) (count.pieces layout place))
    (breaks : Breaks rest) (fits : Fits (.gap :: others) rest) :
    Fits (.gap :: (clauseSlots word (some (rowCountSlots count)) ++ others))
      (.keyword word :: .space :: (count.pieces layout place ++ rest)) := by
  have printed := (prints.followed breaks fits).keyword word
  simpa [clauseSlots, rowCountSlots] using printed

/-- A limit and an offset are printed on one line, if they are there. -/
theorem Fits.counts {limit offset : Option Node}
    (limits : ∀ node ∈ limit, Prints (node.spelling ++ [.gap]) (node.pieces layout place))
    (offsets : ∀ node ∈ offset, Prints (node.spelling ++ [.gap]) (node.pieces layout place))
    (breaks : Breaks rest) (fits : Fits (.gap :: others) rest) :
    Fits (.gap :: (clauseSlots .limit (limit.map rowCountSlots) ++
        (clauseSlots .offset (offset.map rowCountSlots) ++ others)))
      (ownLine indent (announced [.limit] (optionPieces layout limit place)
        ++ announced [.offset] (optionPieces layout offset place)) ++ rest) := by
  rw [optionPieces_eq, optionPieces_eq]
  -- The line is there if either of the two is, and with both there is a space between them.
  cases limit with
  | none =>
    cases offset with
    | none => exact (fits.gap_notBefore _).gap_notBefore _
    | some last =>
      have second := Fits.rowCount .offset (offsets last rfl) breaks fits
      have printed := (second.gap_notBefore (· == .keyword .limit)).line indent
      simpa [clauseSlots, ownLine, announced, Piece.words, Piece.spaced, Piece.keyword,
        List.intercalate] using printed
  | some first =>
    cases offset with
    | none =>
      have alone := fits.gap_notBefore (· == .keyword .offset)
      have printed := (Fits.rowCount .limit (limits first rfl) breaks alone).line indent
      simpa [clauseSlots, ownLine, announced, Piece.words, Piece.spaced, Piece.keyword,
        List.intercalate] using printed
    | some last =>
      have second := (Fits.rowCount .offset (offsets last rfl) breaks fits).space
      have counted := Fits.rowCount .limit (limits first rfl) (breaks_blank rfl) second
      have printed := counted.line indent
      simpa [clauseSlots, ownLine, announced, Piece.words, Piece.spaced, Piece.keyword,
        List.intercalate] using printed

end Lines

section Projections

/-- A projection without a name is printed as an expression is. -/
private theorem fits_plain (formed : Formed .expression node) (breaks : Breaks rest)
    (fits : Fits (.gap :: others) rest) :
    Fits (.gap :: (node.projectionSlots ++ others)) (node.pieces layout place ++ rest) := by
  have printed := (formed.prints layout place).padded .expression node breaks
    (fits.gap_notBefore (· == .keyword .as))
  rw [formed.projectionSlots_eq.1]
  simpa [Node.padded, pad] using printed.gap_gap

/-- A projection with a name is printed up to that name, with no gap after it. -/
private theorem fits_named {inner : Node} {name : String} (formed : Formed .expression inner)
    (named : IsName name) (breaks : Breaks rest) (fits : Fits others rest) :
    Fits (.gap :: ((Node.aliasAs inner name).projectionSlots ++ others))
      ((Node.aliasAs inner name).pieces layout place ++ rest) := by
  have known : (Piece.verbatim name).Sound := Or.inl named
  -- The name comes last, then the `AS` before it, then the expression.
  have after := (Fits.last (.verbatim name) known rfl breaks fits).keyword .as
  have printed := (formed.prints layout place).padded .expression inner (breaks_blank rfl)
    after.space
  simpa [Node.projectionSlots, Node.padded, pad, Node.pieces, Piece.lexeme] using printed.gap_gap

/-- A projection begins with a gap. -/
private theorem Projected.leads (projected : Projected node) :
    ∃ more, node.projectionSlots = .gap :: more := by
  cases projected with
  | plain formed =>
    rw [formed.projectionSlots_eq.1]
    exact ⟨_, rfl⟩
  | named formed named => exact ⟨_, rfl⟩

/-- A projection is printed before the comma that touches it. -/
private theorem Projected.fits_before (projected : Projected node)
    (fits : Fits (.mark .comma :: others) (.mark .comma :: rest)) :
    Fits (.gap :: (node.projectionSlots ++ .mark .comma :: others))
      (node.pieces layout place ++ .mark .comma :: rest) := by
  -- Without a name there is a gap before the comma, which may be empty. With one there is none at
  -- all.
  cases projected with
  | plain formed =>
    have comma : (Piece.mark .comma).Sound := trivial
    exact fits_plain formed (breaks_mark rfl) (fits.gap_solid comma rfl)
  | named formed named => exact fits_named formed named (breaks_mark rfl) fits

/-- The last projection is printed before white space. -/
private theorem Projected.fits_last (projected : Projected node) (ends : Ends rest)
    (fits : Fits (.gap :: others) rest) :
    Fits (.gap :: (node.projectionSlots ++ (node.projectionEnd ++ .gap :: others)))
      (node.pieces layout place ++ rest) := by
  cases projected with
  | plain formed =>
    rw [formed.projectionSlots_eq.2]
    exact fits_plain formed ends.breaks (fits.gap_gap.gap_notBefore _)
  | named formed named =>
    apply fits_named formed named ends.breaks
    apply Fits.notTouching _ fits
    -- White space comes next, and never a comma.
    intro next first
    have blank := ends next first
    cases next <;> first | rfl | cases blank

/-- Projections are printed after a space, if there are any. -/
theorem Fits.projections {projections : Option (List Node)}
    (formed : ∀ items ∈ projections, items ≠ [] ∧ ∀ item ∈ items, Projected item)
    (ends : Ends rest) (fits : Fits (.gap :: others) rest) :
    Fits (.gap :: (projectionSlots projections ++ others))
      (((listPieces layout projections place).map fun items =>
        .space :: List.intercalate (layout.separator indent) items).getD [] ++ rest) := by
  cases projections with
  | none => exact fits.gap_notBefore _
  | some items =>
    obtain ⟨nonempty, each⟩ := formed items rfl
    -- Either layout puts a comma and then some white space.
    obtain ⟨piece, blank, shape⟩ : ∃ piece : Piece, piece.isBlank = true ∧
        layout.separator indent = [.mark .comma, piece] := by
      cases layout <;> exact ⟨_, rfl, rfl⟩
    -- A projection is printed in one way before a comma and in another at the end of the list.
    have printed : Fits (.gap ::
        commaSlots ((items.getLast?.map Node.projectionEnd).getD [])
          (items.map Node.projectionSlots) ++ .gap :: others)
        (List.intercalate [.mark .comma, piece] (items.map fun item => item.pieces layout place)
          ++ rest) := by
      apply Prints.fits_commaSlots blank nonempty
      · intro item member
        exact (each item member).leads
      · intro item member others rest fits
        exact (each item member).fits_before fits
      · intro item last
        rw [Option.mem_def.1 last]
        exact (each item (List.mem_of_getLast? last)).fits_last ends fits
    simpa [SelectSql.projectionSlots, listPieces, nodePieces_eq, shape] using printed.space

end Projections

section Keys

/-- Modifiers of a sort key are printed with a space before each. -/
private theorem fits_options (options : List SortOption) (breaks : Breaks rest)
    (fits : Fits (.gap :: others) rest) :
    Breaks ((options.flatMap fun option => .space :: Piece.words option.keywords) ++ rest) ∧
      Fits (.gap ::
          (options.flatMap (fun option => keywordSlots option.keywords ++ [.gap]) ++ others))
        ((options.flatMap fun option => .space :: Piece.words option.keywords) ++ rest) := by
  -- What follows the modifiers may follow an expression, and so may the space in front of each.
  induction options with
  | nil => exact ⟨breaks, fits⟩
  | cons option options ih =>
    have nonempty : option.keywords ≠ [] := by cases option <;> simp [SortOption.keywords]
    have printed := (Prints.words nonempty _ _ ih.1 ih.2).space
    refine ⟨breaks_blank rfl, ?_⟩
    simpa using printed

/-- A sort key is printed as it is spelled. -/
theorem SortKey.prints {key : SortKey} (formed : Formed .expression key.key) (place : Place) :
    Prints key.slots (key.pieces layout place) := by
  intro others rest breaks fits
  obtain ⟨key, options⟩ := key
  -- The key is printed before its modifiers, and those before the look ahead.
  obtain ⟨apart, modifiers⟩ := fits_options options breaks
    (fits.gap_notBefore (SortOption.goesOn options))
  have printed := (formed.prints layout place).padded .expression key apart modifiers
  simpa [SortKey.slots, SortKey.pieces, Node.padded, pad] using printed.gap_gap

end Keys

section Sources

/-- What follows a source may follow it without a name as well. -/
private theorem fits_memberEnd (prints : Prints (node.sourceSlots ++ [.gap]) pieces)
    (breaks : Breaks rest) (fits : Fits (.gap :: others) rest) :
    Fits (.gap :: (node.sourceSlots ++ (node.memberEnd ++ .gap :: others))) (pieces ++ rest) := by
  -- A source with a name of its own has no look ahead, and any other has just one.
  have ends : node.memberEnd = [.gap, .notBefore Lexeme.namesSource] ∨ node.memberEnd = [] := by
    cases node <;> first | exact Or.inl rfl | exact Or.inr rfl
  rcases ends with ends | ends
  · rw [ends]
    exact prints.followed breaks (fits.gap_gap.gap_notBefore _)
  · rw [ends]
    exact prints.followed breaks fits

/-- A source is printed with the white space around it. -/
theorem Prints.source (prints : Prints (node.sourceSlots ++ [.gap]) pieces) :
    Prints node.paddedSource pieces := by
  intro others rest breaks fits
  have printed := fits_memberEnd prints breaks (fits.gap_notBefore fun lexeme =>
    lexeme.joinKind?.isSome)
  simpa [Node.paddedSource, padSource] using printed.gap_gap

/-- A name is printed as the source it is. -/
theorem Prints.table {name : String} (named : IsName name) :
    Prints ((Node.reference none name).sourceSlots ++ [.gap])
      ((Node.reference none name).pieces layout place) := by
  intro others rest breaks fits
  have known : (Piece.verbatim name).Sound := Or.inl named
  apply Fits.last (.verbatim name) known rfl breaks
  apply Fits.notTouching _ fits
  -- A point is nothing that may come after an expression.
  intro next first
  have allowed := breaks next first
  cases shape : next.lexeme == .mark .dot with
  | false => rfl
  | true =>
    rw [beq_iff_eq.1 shape] at allowed
    cases allowed

/-- A qualified name is printed with nothing around its point. -/
theorem Prints.qualified {table name : String} (held : IsName table) (named : IsName name) :
    Prints ((Node.reference (some table) name).sourceSlots ++ [.gap])
      ((Node.reference (some table) name).pieces layout place) :=
  (Formed.member held (Or.inl named)).prints layout place

/-- A source between parentheses is printed with nothing beside them. -/
theorem Prints.parens {inner : Node} (opens : ∀ rest, Opens (inner.pieces layout place ++ rest))
    (prints : Prints (inner.sourceSlots ++ [.gap]) (inner.pieces layout place)) :
    Prints ((Node.parens inner).sourceSlots ++ [.gap])
      ((Node.parens inner).pieces layout place) := by
  -- Within the parentheses the source has white space around it.
  have held := Prints.inParens (fun rest _ => opens rest) prints.source
  simpa [Node.sourceSlots, Node.pieces, Node.paddedSource, padSource] using held

/-- A name after `AS` is printed with spaces before both. -/
theorem Prints.aliasAs {inner : Node} {name : String} (named : IsName name)
    (prints : Prints (inner.sourceSlots ++ [.gap]) (inner.pieces layout place)) :
    Prints ((Node.aliasAs inner name).sourceSlots ++ [.gap])
      ((Node.aliasAs inner name).pieces layout place) := by
  intro others rest breaks fits
  have known : (Piece.verbatim name).Sound := Or.inl named
  -- The name is printed first, and then what comes before it.
  have after := (Fits.last (.verbatim name) known rfl breaks fits).keyword .as
  have printed := prints.followed (breaks_blank rfl) after.space
  simpa [Node.sourceSlots, Node.pieces, Piece.lexeme] using printed

/-- A bare name is printed after a space. -/
theorem Prints.aliasBare {inner : Node} {name : String} (named : IsName name)
    (prints : Prints (inner.sourceSlots ++ [.gap]) (inner.pieces layout place)) :
    Prints ((Node.aliasBare inner name).sourceSlots ++ [.gap])
      ((Node.aliasBare inner name).pieces layout place) := by
  intro others rest breaks fits
  have known : (Piece.verbatim name).Sound := Or.inl named
  have after := Fits.last (.verbatim name) known rfl breaks fits
  have printed := prints.followed (breaks_blank rfl) after.space
  simpa [Node.sourceSlots, Node.pieces, Piece.lexeme] using printed

/-- A join is printed on lines of its own after its left side. -/
theorem Prints.join {kind : JoinKind} {left right : Node} {condition : Option Node}
    (first : Prints (left.sourceSlots ++ [.gap]) (left.pieces layout place))
    (second : Prints (right.sourceSlots ++ [.gap]) (right.pieces layout place))
    (under : ∀ node ∈ condition, Formed .expression node) :
    Prints ((Node.join kind left right condition).sourceSlots ++ [.gap])
      ((Node.join kind left right condition).pieces layout place) := by
  intro others rest breaks fits
  -- A join is printed from its condition back to its left side.
  have last : Fits (.gap :: (clauseSlots .on (condition.map (Node.padded .expression)) ++
      .gap :: others)) (ownLine place.indent (announced [.on] (condition.map fun node =>
        node.pieces layout place)) ++ rest) := by
    apply Fits.clause (fun node _ => ⟨_, rfl⟩) _ breaks fits.gap_gap
    intro node member
    exact ((under node member).prints layout place).pad .expression node
  have joined := fits_memberEnd second breaks.ownLine last
  have nonempty : kind.keywords ++ [.join] ≠ [] := by simp
  have words := (Prints.words nonempty).followed (breaks_blank rfl) joined.space
  have printed := fits_memberEnd first (breaks_blank rfl) (words.line place.indent)
  simpa [Node.sourceSlots, Node.pieces, JoinKind.pieces, optionPieces_eq] using printed

end Sources

section Whole

/-- White space may come after `SELECT` and after `DISTINCT`. -/
private theorem fits_head (distinct : Bool) (ends : Ends pieces)
    (fits : Fits (.gap :: slots) pieces) :
    Fits (.gap :: .keyword .select :: .gap ::
        ((if distinct then [.keyword .distinct] else [.notBefore (· == .keyword .distinct)])
          ++ .gap :: slots))
      (.keyword .select ::
        ((if distinct then [.space, .keyword .distinct] else []) ++ pieces)) := by
  -- Without a `DISTINCT` the slots look ahead for one, which printed text need not pass here.
  cases distinct with
  | false =>
    exact Fits.last (.keyword .select) trivial rfl ends.breaks (fits.gap_gap.gap_notBefore _)
  | true =>
    exact (Fits.last (.keyword .distinct) trivial rfl ends.breaks fits).keyword .select

/-- A statement inside another begins a line. -/
private theorem fits_indent (fits : Fits (.gap :: slots) pieces) :
    Fits (.gap :: slots)
      ((if place.enclosing.isSome then [.line place.nested] else []) ++ pieces) := by
  split
  · exact fits.line place.nested
  · exact fits

/-- The printed form of a statement, clause by clause. -/
theorem Select.pieces_eq (statement : Select) (place : Place) :
    statement.pieces layout place =
      (if place.enclosing.isSome then [.line place.nested] else []) ++ .keyword .select ::
      ((if statement.distinct then [.space, .keyword .distinct] else []) ++
      (((listPieces layout statement.projections place.clause).map fun items =>
        .space :: List.intercalate (layout.separator place.nested) items).getD [] ++
      (ownLine place.nested (announced [.from_] (statement.sources.map fun nodes =>
        commaList (nodes.map fun node => node.pieces layout place.clause))) ++
      (ownLine place.nested (announced [.where_] (statement.filter.map fun node =>
        node.pieces layout place.filter)) ++
      (ownLine place.nested (announced [.group, .by_] (statement.groupBy.map fun nodes =>
        commaList (nodes.map fun node => node.pieces layout place.clause))) ++
      (ownLine place.nested (announced [.order, .by_] (statement.orderBy.map fun keys =>
        commaList (keys.map fun key => key.pieces layout place.clause))) ++
      (ownLine place.nested
        (announced [.limit] (optionPieces layout statement.limit place.clause) ++
          announced [.offset] (optionPieces layout statement.offset place.clause)) ++
      [.line place.indent]))))))) := by
  -- The lists of a statement are printed by functions of their own, which amount to a map.
  have lists : ∀ nodes : Option (List Node), (listPieces layout nodes place.clause).map commaList =
      nodes.map fun nodes => commaList (nodes.map fun node => node.pieces layout place.clause) := by
    intro nodes
    cases nodes with
    | none => rfl
    | some nodes => simp [listPieces, nodePieces_eq]
  have keys : ∀ keys : List SortKey, keyPieces layout keys place.clause =
      keys.map fun key => key.pieces layout place.clause := by
    intro keys
    induction keys with
    | nil => rfl
    | cons key keys ih => rw [keyPieces, ih, List.map_cons]
  have orders : ∀ order : Option (List SortKey),
      (orderPieces layout order place.clause).map commaList = order.map fun keys =>
        commaList (keys.map fun key => key.pieces layout place.clause) := by
    intro order
    cases order with
    | none => rfl
    | some order => simp [orderPieces, keys]
  cases statement
  simp only [Select.pieces, lists, orders, optionPieces_eq, List.cons_append, List.append_assoc]

/-- Projections begin with white space, and otherwise what follows them does. -/
private theorem ends_projections {projections : Option (List Node)} (ends : Ends rest) :
    Ends (((listPieces layout projections place).map fun items =>
      .space :: List.intercalate (layout.separator indent) items).getD [] ++ rest) := by
  cases projections with
  | none => exact ends
  | some items => exact ends_blank rfl

/-- A statement is printed as it is spelled if its sources are. -/
private theorem prints_select {statement : Select} (formed : SelectFormed statement)
    (members : ∀ items ∈ statement.sources, ∀ item ∈ items, ∀ place,
      Prints (item.sourceSlots ++ [.gap]) (item.pieces layout place)) (place : Place) :
    Prints (statement.slots ++ [.gap]) (statement.pieces layout place) := by
  obtain ⟨projected, nonempty, _, filtered, grouped, ordered, limited, skipped⟩ := formed
  intro others rest breaks fits
  rw [Select.slots_eq, Select.pieces_eq]
  simp only [List.cons_append, List.append_assoc, List.nil_append]
  -- Every clause ends where a line begins, at the latest that after the statement.
  have final : Ends (.line place.indent :: rest) := ends_blank rfl
  apply fits_indent
  apply fits_head
  · apply ends_projections
    repeat apply Ends.ownLine
    exact final
  -- From here on the clauses are printed in their order, each before those after it.
  apply Fits.projections projected
  · repeat apply Ends.ownLine
    exact final
  apply Fits.clause
  · intro items member
    apply leads_commaSlots (by simpa using nonempty items member)
    intro slots among
    obtain ⟨item, _, rfl⟩ := List.mem_map.1 among
    exact ⟨_, rfl⟩
  · intro items member
    have space : Piece.space.isBlank = true := rfl
    apply Prints.commaList space (fun item _ => ⟨_, rfl⟩)
    intro item among
    exact (members items member item among place.clause).source
  · repeat apply Breaks.ownLine
    exact final.breaks
  apply Fits.clause
  · intro node _
    exact ⟨_, rfl⟩
  · intro node member
    exact ((filtered node member).prints layout place.filter).pad .expression node
  · repeat apply Breaks.ownLine
    exact final.breaks
  apply Fits.byClause
  · intro items member
    exact (grouped items member).1
  · intro items _ node _
    exact ⟨_, rfl⟩
  · intro items member node among
    exact (((grouped items member).2 node among).prints layout place.clause).pad .expression node
  · repeat apply Breaks.ownLine
    exact final.breaks
  apply Fits.byClause
  · intro keys member
    exact (ordered keys member).1
  · intro keys _ key _
    exact ⟨_, rfl⟩
  · intro keys member key among
    exact SortKey.prints ((ordered keys member).2 key among).1 place.clause
  · apply Breaks.ownLine
    exact final.breaks
  -- The last line holds the limit and the offset.
  apply Fits.counts
  · intro node member
    exact (limited node member).prints layout place.clause
  · intro node member
    exact (skipped node member).prints layout place.clause
  · exact final.breaks
  exact (fits.line place.indent).gap_gap

/-- A statement may be printed right after a mark. -/
private theorem opens_select (statement : Select) :
    Opens (statement.pieces layout place ++ rest) := by
  rw [Select.pieces_eq]
  intro next first sign
  -- It begins with a line break or with its `SELECT`.
  split at first
  · obtain rfl := Option.some.inj first
    rfl
  · obtain rfl := Option.some.inj first
    rfl

mutual

/-- A source may be printed right after a mark. -/
theorem SourceFormed.opens {part : SourcePart} {node : Node} (formed : SourceFormed part node)
    (layout : ProjectionLayout) (place : Place) (rest : List Piece) :
    Opens (node.pieces layout place ++ rest) := by
  -- The recursion goes down to what is printed first.
  match formed with
  | .table named | .qualified named _ =>
    apply opens_of_starts
    rw [Piece.lexeme, named.ofText_eq]
    rfl
  | .parens held =>
    apply opens_of_starts
    rfl
  | .select formed => exact opens_select _
  | .ofBase base => exact base.opens layout place rest
  | .aliasAs base named | .aliasBare base named =>
    rw [Node.pieces, List.append_assoc]
    exact base.opens layout place _
  | .ofMember member => exact member.opens layout place rest
  | .join before after under =>
    rw [Node.pieces, List.append_assoc, List.append_assoc, List.append_assoc]
    exact before.opens layout place _
termination_by structural formed

/-- Every source is printed as it is spelled. -/
theorem SourceFormed.prints {part : SourcePart} {node : Node} (formed : SourceFormed part node)
    (layout : ProjectionLayout) (place : Place) :
    Prints (node.sourceSlots ++ [.gap]) (node.pieces layout place) := by
  match formed with
  | .table named => exact Prints.table named
  | .qualified held named => exact Prints.qualified held named
  | .parens held => exact Prints.parens (held.opens layout place) (held.prints layout place)
  | .select formed => exact formed.prints layout place
  | .ofBase base => exact base.prints layout place
  | .aliasAs base named => exact Prints.aliasAs named (base.prints layout place)
  | .aliasBare base named => exact Prints.aliasBare named (base.prints layout place)
  | .ofMember member => exact member.prints layout place
  | .join before after under =>
    exact Prints.join (before.prints layout place) (after.prints layout place) under

/-- Every statement is printed as it is spelled. -/
theorem SelectFormed.prints {statement : Select} (formed : SelectFormed statement)
    (layout : ProjectionLayout) (place : Place) :
    Prints (statement.slots ++ [.gap]) (statement.pieces layout place) := by
  -- The sources are parts of the statement, which makes the recursion structural.
  match formed with
  | .clauses projections nonempty sources filter groupBy orderBy limit offset =>
    apply prints_select (.clauses projections nonempty sources filter groupBy orderBy limit offset)
    intro items member item among place
    exact (sources items member item among).prints layout place

end

end Whole

end SelectSql
