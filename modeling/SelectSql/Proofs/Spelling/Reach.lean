import SelectSql.Proofs.Spelling.Expression

/-!
What may follow an expression, and what it begins with. Each tier reaches for the operators of its
own, and only some lexemes can be first.
-/

namespace SelectSql

variable {lexeme : Lexeme} {lexemes after rest : List Lexeme} {node : Node}
  {tier lower upper limit : Tier} {op : BinaryOp} {text : String}

section Joining

/-- Tiers differ in rank. -/
theorem Tier.rank_injective {other : Tier} (same : tier.rank = other.rank) : tier = other := by
  cases tier <;> cases other <;> first | rfl | cases same

/-- Arithmetic makes operands. -/
theorem BinaryOp.tier_of_isArithmetic (sign : op.isArithmetic = true) : op.tier = .operand := by
  rw [BinaryOp.tier, if_pos sign]

/-- Comparisons and words of likeness make predicates. -/
theorem BinaryOp.tier_of_isMatch (sign : op.isMatch = true) : op.tier = .predicate := by
  cases op <;> first | rfl | cases sign

/-- Connectives and `IS` make expressions. -/
theorem BinaryOp.tier_of_isLink (word : op.isLink = true) : op.tier = .expression := by
  cases op <;> first | rfl | cases word

/-- An operator joins at its own tier. -/
theorem BinaryOp.joins?_sign (op : BinaryOp) : op.sign.joins? = some op.tier := by
  cases op <;> rfl

/-- What joins is a suffix, a `NOT` or an operator. -/
theorem Lexeme.joins?_eq_some (joins : lexeme.joins? = some tier) :
    (lexeme = .mark .openBracket ∧ tier = .indexed) ∨
      (lexeme = .mark .doubleColon ∧ tier = .suffixed) ∨
      (lexeme = .keyword .not ∧ tier = .predicate) ∨
      ∃ op : BinaryOp, lexeme = op.sign ∧ op ≠ .isNot ∧ tier = op.tier := by
  -- The definition asks for the two suffixes and the `NOT` before it looks for an operator.
  unfold joins? at joins
  split at joins
  · left
    rename_i same
    exact ⟨same, (Option.some.inj joins).symm⟩
  split at joins
  · right; left
    rename_i same
    exact ⟨same, (Option.some.inj joins).symm⟩
  split at joins
  · right; right; left
    rename_i same
    exact ⟨same, (Option.some.inj joins).symm⟩
  · right; right; right
    obtain ⟨op, found, same⟩ := Option.map_eq_some_iff.1 joins
    obtain ⟨sign, single, _⟩ := Lexeme.binaryOp?_eq_some.1 found
    exact ⟨op, sign, single, same.symm⟩

/-- Only a bracket begins an index. -/
theorem Lexeme.joins?_indexed (joins : lexeme.joins? = some .indexed) :
    lexeme = .mark .openBracket := by
  rcases Lexeme.joins?_eq_some joins with ⟨same, _⟩ | ⟨_, other⟩ | ⟨_, other⟩ | ⟨op, _, _, other⟩
  · exact same
  · cases other
  · cases other
  · -- No operator makes an indexed value.
    cases op <;> cases other

/-- Only a double colon begins a conversion. -/
theorem Lexeme.joins?_suffixed (joins : lexeme.joins? = some .suffixed) :
    lexeme = .mark .doubleColon := by
  rcases Lexeme.joins?_eq_some joins with ⟨_, other⟩ | ⟨same, _⟩ | ⟨_, other⟩ | ⟨op, _, _, other⟩
  · cases other
  · exact same
  · cases other
  · cases op <;> cases other

/-- Only an arithmetic sign goes on with an operand. -/
theorem Lexeme.joins?_operand (joins : lexeme.joins? = some .operand) :
    ∃ op, lexeme.binaryOp? BinaryOp.isArithmetic = some op := by
  rcases Lexeme.joins?_eq_some joins with
    ⟨_, other⟩ | ⟨_, other⟩ | ⟨_, other⟩ | ⟨op, same, single, other⟩
  · cases other
  · cases other
  · cases other
  · -- Of the operators only those of arithmetic make operands.
    refine ⟨op, Lexeme.binaryOp?_eq_some.2 ⟨same, single, ?_⟩⟩
    cases op <;> first | rfl | cases other

/-- A predicate is announced by `NOT`, `BETWEEN`, `IN`, a comparison or a word of likeness. -/
theorem Lexeme.joins?_predicate (joins : lexeme.joins? = some .predicate) :
    lexeme = .keyword .not ∨ lexeme = .keyword .between ∨ lexeme = .keyword .in_ ∨
      ∃ op, lexeme.binaryOp? BinaryOp.isMatch = some op := by
  rcases Lexeme.joins?_eq_some joins with
    ⟨_, other⟩ | ⟨_, other⟩ | ⟨same, _⟩ | ⟨op, rfl, single, other⟩
  · cases other
  · cases other
  · exact Or.inl same
  · -- `BETWEEN` and `IN` count as operators here, but are not read as signs.
    by_cases matching : op.isMatch = true
    · right; right; right
      exact ⟨op, Lexeme.binaryOp?_eq_some.2 ⟨rfl, single, matching⟩⟩
    · cases op with
      | between => exact Or.inr (Or.inl rfl)
      | in_ => exact Or.inr (Or.inr (Or.inl rfl))
      | _ => first | exact absurd rfl matching | cases other

/-- Only a connective or `IS` goes on with an expression. -/
theorem Lexeme.joins?_expression (joins : lexeme.joins? = some .expression) :
    ∃ op, lexeme.binaryOp? BinaryOp.isLink = some op := by
  rcases Lexeme.joins?_eq_some joins with
    ⟨_, other⟩ | ⟨_, other⟩ | ⟨_, other⟩ | ⟨op, same, single, other⟩
  · cases other
  · cases other
  · cases other
  · -- A negated `IS` is no lexeme of its own, so the operator is one that is read.
    refine ⟨op, Lexeme.binaryOp?_eq_some.2 ⟨same, single, ?_⟩⟩
    cases op <;> first | rfl | exact absurd rfl single | cases other

end Joining

section Taking

/-- An expression takes what joins between its own tier and the limit. -/
theorem Node.takes_eq_true :
    node.takes limit lexeme = true ↔
      ∃ tier, lexeme.joins? = some tier ∧ node.tier.rank < tier.rank ∧ tier.rank ≤ limit.rank := by
  unfold takes
  cases lexeme.joins? <;> simp

/-- An expression that is complete at its limit takes nothing more. -/
theorem avoids_takes_complete (complete : limit.rank ≤ node.tier.rank) :
    Avoids (node.takes limit) lexemes := by
  intro lexeme _
  cases taken : node.takes limit lexeme with
  | false => rfl
  -- What is taken lies strictly above the tier of the expression and at most at the limit.
  | true =>
    obtain ⟨tier, _, above, below⟩ := Node.takes_eq_true.1 taken
    omega

/-- What takes nothing up to one tier takes nothing of the next if none of that comes first. -/
theorem avoids_takes_succ (lower : Tier) (adjacent : upper.rank = lower.rank + 1)
    (avoids : Avoids (node.takes lower) lexemes)
    (other : ∀ lexeme ∈ lexemes.head?, lexeme.joins? ≠ some upper) :
    Avoids (node.takes upper) lexemes := by
  intro lexeme first
  cases taken : node.takes upper lexeme with
  | false => rfl
  | true =>
    obtain ⟨tier, joins, above, below⟩ := Node.takes_eq_true.1 taken
    -- What is joined belongs to the new tier, which is ruled out, or to one below it.
    by_cases same : tier = upper
    · subst same
      exact absurd joins (other lexeme first)
    · have apart : tier.rank ≠ upper.rank := fun equal => same (Tier.rank_injective equal)
      have fails := avoids lexeme first
      rw [Node.takes_eq_true.2 ⟨tier, joins, above, by omega⟩] at fails
      cases fails

/-- A smaller limit takes less. -/
theorem avoids_takes_lower (smaller : lower.rank ≤ upper.rank)
    (avoids : Avoids (node.takes upper) lexemes) : Avoids (node.takes lower) lexemes := by
  -- Both limits ask for a tier above that of the expression, and the smaller one for less.
  refine avoids.mono ?_
  intro lexeme taken
  obtain ⟨tier, joins, above, below⟩ := Node.takes_eq_true.1 taken
  exact Node.takes_eq_true.2 ⟨tier, joins, above, by omega⟩

/-- What joins beyond the limit is not taken. -/
theorem avoids_takes_beyond (joins : lexeme.joins? = some tier) (beyond : limit.rank < tier.rank) :
    Avoids (node.takes limit) (lexeme :: lexemes) := by
  rw [avoids_cons]
  cases taken : node.takes limit lexeme with
  | false => rfl
  | true =>
    obtain ⟨found, joins', _, below⟩ := Node.takes_eq_true.1 taken
    -- A lexeme joins on one tier only.
    obtain rfl := Option.some.inj (joins.symm.trans joins')
    omega

/-- What is not taken does not join at a tier between that of the expression and the limit. -/
theorem Avoids.joins?_ne (avoids : Avoids (node.takes limit) lexemes)
    (above : node.tier.rank < tier.rank) (below : tier.rank ≤ limit.rank) :
    ∀ lexeme ∈ lexemes.head?, lexeme.joins? ≠ some tier := by
  intro lexeme first joins
  -- A lexeme that joined there would be taken.
  have fails := avoids lexeme first
  rw [Node.takes_eq_true.2 ⟨tier, joins, above, below⟩] at fails
  cases fails

/-- Where nothing joins at a tier, no lexeme that would is next. -/
theorem avoids_joining {tier : Tier} (apart : ∀ lexeme ∈ lexemes.head?, lexeme.joins? ≠ some tier)
    (joins : lexeme.joins? = some tier) : Avoids (· == lexeme) lexemes := by
  intro other first
  rw [beq_eq_false_iff_ne]
  rintro rfl
  exact apart _ first joins

/-- Where nothing joins at a tier, no operator of the tier is next. -/
theorem avoids_binaryOp? {admitted : BinaryOp → Bool}
    (apart : ∀ lexeme ∈ lexemes.head?, lexeme.joins? ≠ some tier)
    (tiers : ∀ op : BinaryOp, admitted op = true → op.tier = tier) :
    Avoids (fun lexeme => (lexeme.binaryOp? admitted).isSome) lexemes := by
  intro lexeme first
  rw [Option.isSome_eq_false_iff, Option.isNone_iff_eq_none]
  cases found : lexeme.binaryOp? admitted with
  | none => rfl
  -- The sign of the operator would join at the tier.
  | some op =>
    obtain ⟨rfl, _, passes⟩ := Lexeme.binaryOp?_eq_some.1 found
    have joins : op.sign.joins? = some tier := by rw [op.joins?_sign, tiers op passes]
    exact absurd joins (apart _ first)

/-- An expression of a tier binds at least as tightly as that tier. -/
theorem Formed.tier_le (formed : Formed tier node) : node.tier.rank ≤ tier.rank := by
  -- A rule that makes a node of its own settles the tier, and the others pass it up by one.
  induction formed with
  | arithmetic sign _ _ _ _ => simp [Node.tier, BinaryOp.tier, sign]
  | link word _ _ _ _ _ => simp [Node.tier, word]
  | @match_ _ _ op _ sign _ _ _ _ => cases op <;> first | exact Nat.le_refl _ | cases sign
  | between => exact Nat.le_refl _
  | in_ => exact Nat.le_refl _
  | ofAtom _ ih | ofIndexed _ ih | ofSuffixed _ ih | ofOperand _ ih | ofPredicate _ ih =>
    exact Nat.le_trans ih (by simp [Tier.rank])
  | _ => simp [Node.tier, Tier.rank]

end Taking

section Padding

/-- Slots are filled with the white space around them where nothing follows that would be taken. -/
theorem fill_pad {slots : List Slot} (filled : fill slots (skip lexemes) = some after)
    (avoids : Avoids (node.takes limit) (skip after)) :
    fill (pad limit node slots) lexemes = some (skip after) := by
  rw [pad, List.cons_append, fill_gap, fill_append_of filled, fill_gap, fill_notBefore, fill_nil]
  -- The look ahead stands behind a gap that has been skipped.
  rw [skip_skip]
  exact avoids

/-- What fills slots with the white space around them leaves what the expression would not take. -/
theorem fill_pad_eq_some {slots : List Slot} :
    fill (pad limit node slots) lexemes = some rest ↔
      ∃ after, fill slots (skip lexemes) = some after ∧ rest = skip after ∧
        Avoids (node.takes limit) rest := by
  rw [pad, List.cons_append, fill_gap, fill_append_eq_some]
  -- The gap in front is skipped, the slots are filled, and the look ahead passes behind one more
  -- gap.
  constructor
  · rintro ⟨after, filled, following⟩
    rw [fill_gap, fill_notBefore_eq_some, skip_skip] at following
    obtain ⟨avoids, same⟩ := following
    obtain rfl := Option.some.inj same
    exact ⟨after, filled, rfl, avoids⟩
  · rintro ⟨after, filled, rfl, avoids⟩
    refine ⟨after, filled, ?_⟩
    rw [fill_gap, fill_notBefore, fill_nil]
    rw [skip_skip]
    exact avoids

/-- A part that leaves no white space in front needs none skipped after it. -/
theorem fill_pad_of_flush {slots : List Slot} (filled : fill slots (skip lexemes) = some rest)
    (flush : skip rest = rest) (avoids : Avoids (node.takes limit) rest) :
    fill (pad limit node slots) lexemes = some rest := by
  rw [fill_pad filled (by rwa [flush]), flush]

/-- What fills slots with the white space around them leaves no white space in front. -/
theorem flush_of_pad {slots : List Slot}
    (filled : fill (pad limit node slots) lexemes = some rest) :
    skip rest = rest := by
  obtain ⟨after, _, rfl, _⟩ := fill_pad_eq_some.1 filled
  exact skip_skip

end Padding

section Operators

/-- All operators but `IS` and its negation are spelled by one symbol and nothing else. -/
theorem BinaryOp.slots_eq (affirmed : op ≠ .is) (denied : op ≠ .isNot) :
    op.slots = [.token op.sign] := by
  cases op <;> first | rfl | exact absurd rfl affirmed | exact absurd rfl denied

/-- The right side of arithmetic and of a comparison is an operand. -/
theorem BinaryOp.rightSlots_operand {slots : List Slot}
    (sign : op.isArithmetic = true ∨ op.isMatch = true) :
    op.rightSlots node slots = pad .operand node slots := by
  rcases sign with sign | sign <;> cases op <;> first | rfl | cases sign

/-- The right side of a connective and of an `IS` is an expression. -/
theorem BinaryOp.rightSlots_expression {slots : List Slot} (word : op.tier = .expression) :
    op.rightSlots node slots = pad .expression node slots := by
  cases op <;> first | rfl | cases word

/-- Signs of arithmetic and comparison, and words of likeness, are neither of the two `IS`. -/
theorem BinaryOp.slots_operand (sign : op.isArithmetic = true ∨ op.isMatch = true) :
    op.slots = [.token op.sign] := by
  apply BinaryOp.slots_eq
  · rintro rfl
    rcases sign with sign | sign <;> cases sign
  · rintro rfl
    rcases sign with sign | sign <;> cases sign

end Operators

section Lists

/-- What must not follow a list stands at its end. -/
theorem commaSlots_append {ending : List Slot} {items : List (List Slot)} (nonempty : items ≠ []) :
    commaSlots ending items = commaSlots [] items ++ ending := by
  -- The ending is put after the last item alone.
  fun_induction commaSlots ending items with
  | case1 => exact absurd rfl nonempty
  | case2 => simp [commaSlots]
  | case3 item next items ih => simp [commaSlots, ih]

/-- Items that begin with a gap do so in a row. -/
theorem leads_commaSlots {ending : List Slot} {items : List (List Slot)} (nonempty : items ≠ [])
    (leads : ∀ item ∈ items, ∃ more, item = .gap :: more) :
    ∃ more, commaSlots ending items = .gap :: more := by
  -- Only the first item matters, whether or not others follow it.
  fun_cases commaSlots ending items with
  | case1 => exact absurd rfl nonempty
  | case2 item =>
    obtain ⟨more, rfl⟩ := leads item (by simp)
    exact ⟨_, rfl⟩
  | case3 item =>
    obtain ⟨more, rfl⟩ := leads item (by simp)
    exact ⟨_, rfl⟩

/-- Each expression of a list is spelled with the white space around it. -/
theorem paddedAll_eq (nodes : List Node) :
    paddedAll nodes = nodes.map (Node.padded .expression) := by
  induction nodes with
  | nil => rfl
  | cons node nodes ih =>
    rw [paddedAll, ih]
    rfl

/-- Expressions in a row begin with a gap, if there are any. -/
theorem leads_paddedAll {ending : List Slot} {nodes : List Node} (nonempty : nodes ≠ []) :
    ∃ more, commaSlots ending (paddedAll nodes) = .gap :: more := by
  rw [paddedAll_eq]
  apply leads_commaSlots (by simpa using nonempty)
  intro slots member
  obtain ⟨node, _, rfl⟩ := List.mem_map.1 member
  exact ⟨_, rfl⟩

/-- Branches are spelled one after the other. -/
theorem Branch.slots_eq (branch : Branch) :
    branch.slots = .keyword .when :: branch.condition.padded .expression ++
      .keyword .then_ :: branch.result.padded .expression := by
  cases branch
  rfl

end Lists

section Texts

/-- The text of a literal stands for itself. -/
theorem IsLiteral.ofText_eq (admitted : IsLiteral text) : Lexeme.ofText text = .literal text := by
  -- A number begins with a digit and a string with a quote, unlike the two symbols.
  have begins : ∃ char rest, text.toList = char :: rest ∧
      (char.isDigit || char == '\'') = true := by
    rcases admitted with ⟨whole, nonempty, digits, shape⟩ | ⟨body, _, shape⟩
    · obtain ⟨digit, others, rfl⟩ := List.exists_cons_of_ne_nil nonempty
      have isDigit := digits digit (by simp)
      rcases shape with shape | ⟨fraction, _, _, shape⟩
      · exact ⟨digit, others, shape, by simp [isDigit]⟩
      · exact ⟨digit, others ++ '.' :: fraction, shape, by simp [isDigit]⟩
    · exact ⟨'\'', body ++ ['\''], shape, rfl⟩
  obtain ⟨char, rest, shape, passes⟩ := begins
  have noNull : text ≠ "NULL" := by
    rintro rfl
    cases shape
    cases passes
  have noStar : text ≠ "*" := by
    rintro rfl
    cases shape
    cases passes
  simp [Lexeme.ofText, noNull, noStar, shape, passes]

/-- The literal that is a word is reserved. -/
private theorem ofText?_null : Keyword.ofText? "NULL" ≠ none := by
  rw [Keyword.ofText?_eq]
  decide +kernel

/-- The text of a name stands for itself. -/
theorem IsName.ofText_eq (admitted : IsName text) : Lexeme.ofText text = .name text := by
  -- A bare name is no keyword, and a delimited one begins with its delimiter.
  have begins : ∃ char rest, text.toList = char :: rest ∧
      (char.isDigit || char == '\'') = false ∧ char ≠ '*' := by
    rcases admitted with ⟨⟨char, rest, shape, starts, noDigit, _⟩, _⟩ | ⟨body, _, shape⟩ |
      ⟨body, _, shape⟩
    · -- Neither a quote nor a star is allowed at the front of a bare name.
      refine ⟨char, rest, shape, ?_, ?_⟩
      · rw [noDigit, Bool.false_or, beq_eq_false_iff_ne]
        rintro rfl
        cases starts
      · rintro rfl
        cases starts
    · exact ⟨'"', body ++ ['"'], shape, by decide, by decide⟩
    · exact ⟨'\x60', body ++ ['\x60'], shape, by decide, by decide⟩
  have noNull : text ≠ "NULL" := by
    rintro rfl
    -- The word is reserved, so it is no bare name, and it has no delimiter.
    rcases admitted with ⟨_, unknown⟩ | ⟨body, _, shape⟩ | ⟨body, _, shape⟩
    · exact ofText?_null unknown
    · cases shape
    · cases shape
  obtain ⟨char, rest, shape, fails, other⟩ := begins
  have noStar : text ≠ "*" := by
    rintro rfl
    cases shape
    exact other rfl
  simp only [Lexeme.ofText, if_neg noNull, if_neg noStar, shape, List.head?_cons, Option.any_some,
    fails, Bool.false_eq_true, if_false]

end Texts

section Beginning

/-- The lexeme that an expression begins with. -/
def Node.first : Node → Lexeme
  | literal text => .ofText text
  | reference none name => .ofText name
  | reference (some table) _ => .ofText table
  | call name _ => .ofText name
  | case .. => .keyword .case
  | binary left _ _ _ => left.first
  | unary op _ => .symbol op.terminal
  | parens _ => .mark .openParen
  | subscript value _ => value.first
  | cast value _ => value.first
  | _ => .foreign

/-- Whether an expression may begin with a lexeme. -/
def Lexeme.starts : Lexeme → Bool
  | name _ | literal _ => true
  | symbol (.keyword word) => word ∈ [Keyword.null, .case, .not, .distinct]
  | symbol (.mark sign) => sign ∈ [Mark.star, .openParen, .plus, .minus]
  | _ => false

/-- The spelling of an expression begins with its first lexeme. -/
theorem Formed.spelling_eq (formed : Formed tier node) :
    ∃ slots, node.spelling = .token node.first :: slots := by
  -- What has a part in front begins as that part does. The others begin with a slot of their own.
  induction formed with
  | subscript _ _ ih _ | cast _ _ ih _ | arithmetic _ _ _ ih _ | between _ _ _ ih _ _
  | in_ _ _ _ ih _ | match_ _ _ _ ih _ | link _ _ _ _ ih _ =>
    obtain ⟨slots, begins⟩ := ih
    simp only [Node.spelling, Node.first, begins, List.cons_append]
    exact ⟨_, rfl⟩
  | ofAtom _ ih | ofIndexed _ ih | ofSuffixed _ ih | ofOperand _ ih | ofPredicate _ ih => exact ih
  | _ => exact ⟨_, rfl⟩

/-- Lexemes that spell an expression begin with its first lexeme. -/
theorem Formed.head?_eq {slots : List Slot} (formed : Formed tier node)
    (filled : fill (node.spelling ++ slots) lexemes = some rest) :
    lexemes.head? = some node.first := by
  obtain ⟨others, begins⟩ := formed.spelling_eq
  rw [begins, List.cons_append, fill_token_eq_some] at filled
  obtain ⟨after, rfl, _⟩ := filled
  rfl

/-- White space aside, lexemes that spell an expression begin with its first lexeme. -/
theorem Formed.head?_of_padded {slots : List Slot} (formed : Formed tier node)
    (filled : fill (node.padded limit ++ slots) lexemes = some rest) :
    (skip lexemes).head? = some node.first := by
  rw [Node.padded, pad, List.cons_append, List.cons_append, fill_gap, List.append_assoc] at filled
  exact formed.head?_eq filled

/-- The first lexeme of an expression is one that may begin one. -/
theorem Formed.starts (formed : Formed tier node) : node.first.starts = true := by
  -- The first lexeme is that of the leftmost part, down to an atom or a prefix.
  induction formed with
  | literal admitted =>
    rcases admitted with literal | rfl | rfl
    · rw [Node.first, literal.ofText_eq]
      rfl
    · decide
    · decide
  | reference named | member named _ | call named _ _ =>
    rw [Node.first, named.ofText_eq]
    rfl
  | @unary op _ _ _ => cases op <;> rfl
  | case | parens => rfl
  | subscript _ _ ih _ | cast _ _ ih _ | arithmetic _ _ _ ih _ | between _ _ _ ih _ _
  | in_ _ _ _ ih _ | match_ _ _ _ ih _ | link _ _ _ _ ih _ => exact ih
  | ofAtom _ ih | ofIndexed _ ih | ofSuffixed _ ih | ofOperand _ ih | ofPredicate _ ih => exact ih

/-- The first lexeme of an expression is a prefix operator exactly if the expression has one. -/
theorem Formed.unaryOp?_first (formed : Formed tier node) :
    node.first.unaryOp? = node.leading := by
  -- As for the first lexeme, the leftmost part decides. Only a prefix in that place is an operator.
  induction formed with
  | literal admitted =>
    rcases admitted with literal | rfl | rfl
    · rw [Node.first, literal.ofText_eq]
      rfl
    · decide
    · decide
  | reference named | member named _ | call named _ _ =>
    rw [Node.first, named.ofText_eq]
    rfl
  | @unary op _ _ _ => cases op <;> rfl
  | case | parens => rfl
  | subscript _ _ ih _ | cast _ _ ih _ | arithmetic _ _ _ ih _ | between _ _ _ ih _ _
  | in_ _ _ _ ih _ | match_ _ _ _ ih _ | link _ _ _ _ ih _ => exact ih
  | ofAtom _ ih | ofIndexed _ ih | ofSuffixed _ ih | ofOperand _ ih | ofPredicate _ ih => exact ih

/-- Atoms and what is made of them by suffixes have no prefix operator in front. -/
theorem Formed.leading_eq_none (formed : Formed tier node) (tight : tier.rank ≤ 2) :
    node.leading = none := by
  induction formed with
  | subscript _ _ ih _ => exact ih (by decide)
  | cast _ _ ih _ => exact ih (by decide)
  | ofAtom _ ih | ofIndexed _ ih => exact ih (by decide)
  | literal | reference | member | call | case | parens => rfl
  -- All the other rules make trees of a higher tier.
  | _ => simp [Tier.rank] at tight

end Beginning

end SelectSql
