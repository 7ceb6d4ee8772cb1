import Mathlib.Data.List.Forall2
import SelectSql.Json.Write

/-!
JSON values that say the same as written ones. At any depth the members of records may be in another
order, absent parts may be left out, and members may be added that a record does not have.
-/

namespace SelectSql

/-- The keys of objects with one member that says what kind of thing the object is. -/
def variantTags : List String :=
  -- Those of nodes come first and those of leaves after them.
  ["Select", "Expr", "Unary", "Atom", "Parens", "As", "Alias", "Join", "Subscript", "TypeCast",
    "Literal", "Attribute", "Function", "Range", "List", "Case"]

/-- The keys of parts that may be absent. -/
def optionalKeys : List String :=
  -- Absence is written as `null`, and no other part is ever written so.
  ["table", "subject", "otherwise", "on", "projections", "from", "where_clause", "group_by",
    "order_by", "limit", "offset"]

/-- What a written value may be changed to without a change of what it says. -/
inductive Loosened : Json → Json → Prop where
  /-- Nothing has to be changed. -/
  | same (value : Json) : Loosened value value
  /-- The items of an array may be changed one by one, but they stay in order. -/
  | array {items others : List Json} (each : List.Forall₂ Loosened items others) :
    Loosened (.array items) (.array others)
  /-- Of an object that says what kind of thing it is only the content may be changed. -/
  | variant {tag : String} {content other : Json} (wrapper : tag ∈ variantTags)
    (inside : Loosened content other) :
    Loosened (.object [(tag, content)]) (.object [(tag, other)])
  /-- Of a record parts that are absent may be left out, the values of the others may be changed,
  members with unknown keys may be added, and the order is free. -/
  | record {written kept changed unknown given : List (String × Json)}
    (plain : ∀ member ∈ written, member.1 ∉ variantTags)
    (fewer : kept.Sublist written)
    (absent : ∀ member ∈ written, member ∈ kept ∨ member.1 ∈ optionalKeys ∧ member.2 = .null)
    (sameKeys : changed.map Prod.fst = kept.map Prod.fst)
    (each : List.Forall₂ Loosened (kept.map Prod.snd) (changed.map Prod.snd))
    (new : ∀ member ∈ unknown, member.1 ∉ written.map Prod.fst)
    (order : given.Perm (changed ++ unknown))
    (distinct : (given.map Prod.fst).Nodup) :
    Loosened (.object written) (.object given)

/-- Keys of a record, which are distinct and none of which says what kind of thing an object is. -/
def AreKeys (keys : List String) : Prop :=
  -- A record with one member could otherwise be taken for something with a kind.
  keys.Nodup ∧ ∀ key ∈ keys, key ∉ variantTags

/-- It is decided by comparing the keys. -/
instance (keys : List String) : Decidable (AreKeys keys) :=
  -- Both lists are finite.
  inferInstanceAs (Decidable (_ ∧ _))

/-- Whether a value has no other values in it. -/
def Json.isScalar : Json → Bool
  -- Texts, numbers, truth values and `null` are as they are.
  | .array _ | .object _ => false
  | _ => true

namespace Json

variable {members : List (String × Json)} {key : String} {value : Json}

/-- Among members with distinct keys each is found under its key. -/
theorem member_of_mem (distinct : (members.map Prod.fst).Nodup)
    (inside : (key, value) ∈ members) : member members key = value := by
  obtain ⟨before, after, rfl⟩ := List.append_of_mem inside
  -- No member before it has its key, so it is the first with that key.
  have first : (before ++ (key, value) :: after).lookup key = some value := by
    refine List.lookup_eq_some_iff.2 ⟨before, after, rfl, fun other earlier => ?_⟩
    rw [List.map_append, List.nodup_append] at distinct
    have differ := distinct.2.2 other.1 (List.mem_map_of_mem earlier) key (List.mem_cons_self ..)
    exact bne_iff_ne.2 differ.symm
  rw [member, first, Option.getD_some]

/-- What no member has for its key counts as `null`. -/
theorem member_of_notMem (missing : key ∉ members.map Prod.fst) : member members key = null := by
  have none : members.lookup key = none := by
    refine List.lookup_eq_none_iff.2 fun other inside => bne_iff_ne.2 fun same => missing ?_
    rw [same]
    exact List.mem_map_of_mem inside
  rw [member, none, Option.getD_none]

end Json

namespace Loosened

variable {value other content : Json} {written given : List (String × Json)} {tag : String}

/-- A value with no others in it stays as it is. -/
theorem eq_of_scalar (loosened : Loosened value other) (scalar : value.isScalar = true) :
    other = value := by
  -- Every other change is one to an array or an object.
  cases loosened with
  | same => rfl
  | _ => cases scalar

/-- The items of an array are changed one by one. -/
theorem items {items : List Json} (loosened : Loosened (.array items) other) :
    ∃ others, other = .array others ∧ List.Forall₂ Loosened items others := by
  cases loosened with
  | same => exact ⟨items, rfl, List.forall₂_same.2 fun item _ => .same item⟩
  | array each => exact ⟨_, rfl, each⟩

/-- Values with no others in them stay as they are. -/
theorem eq_of_scalars {items others : List Json} (each : List.Forall₂ Loosened items others)
    (scalars : ∀ item ∈ items, item.isScalar = true) : others = items := by
  induction each with
  | nil => rfl
  | cons first _ ih =>
    obtain ⟨here, there⟩ := List.forall_mem_cons.1 scalars
    rw [first.eq_of_scalar here, ih there]

/-- What says what kind of thing it is says the same afterwards, and its content is changed. -/
theorem content_of_tagged (loosened : Loosened (.object [(tag, content)]) other)
    (wrapper : tag ∈ variantTags) :
    ∃ inside, other = .object [(tag, inside)] ∧ Loosened content inside := by
  cases loosened with
  | same => exact ⟨content, rfl, .same content⟩
  | variant _ inside => exact ⟨_, rfl, inside⟩
  | record plain => exact absurd wrapper (plain (tag, content) (List.mem_singleton_self _))

/-- A leaf stays a leaf of its kind, and its content is changed. -/
theorem content_of_atom (loosened : Loosened (.atom tag content) other)
    (wrapper : tag ∈ variantTags) :
    ∃ inside, other = .object [("Atom", .object [(tag, inside)])] ∧ Loosened content inside := by
  -- The tag of leaves is around that of their kind.
  obtain ⟨outer, rfl, leaf⟩ := content_of_tagged loosened (by decide)
  obtain ⟨inside, rfl, changes⟩ := content_of_tagged leaf wrapper
  exact ⟨inside, rfl, changes⟩

/-- Where values are changed one by one under the same keys, each member has a changed one. -/
private theorem exists_changed {kept changed : List (String × Json)}
    (sameKeys : changed.map Prod.fst = kept.map Prod.fst)
    (each : List.Forall₂ Loosened (kept.map Prod.snd) (changed.map Prod.snd)) {key : String}
    (inside : (key, value) ∈ kept) : ∃ other, (key, other) ∈ changed ∧ Loosened value other := by
  -- The two lists are walked together, key by key.
  induction kept generalizing changed with
  | nil => cases inside
  | cons first kept ih =>
    cases changed with
    | nil => cases sameKeys
    | cons next changed =>
      obtain ⟨name, content⟩ := next
      obtain ⟨sameKey, sameRest⟩ := List.cons.inj sameKeys
      cases each with
      | cons loosened others =>
        cases inside with
        | head =>
          cases sameKey
          exact ⟨content, List.mem_cons_self .., loosened⟩
        | tail _ further =>
          obtain ⟨other, there, changes⟩ := ih sameRest others further
          exact ⟨other, List.mem_cons_of_mem _ there, changes⟩

/-- Under every key of a record stands what is changed from what was written under it. -/
theorem parts (loosened : Loosened (.object written) other) (keys : List String)
    (record : AreKeys keys) (named : written.map Prod.fst = keys) :
    ∃ members, other = .object members ∧
      ∀ key ∈ keys, Loosened (Json.member written key) (Json.member members key) := by
  subst named
  obtain ⟨unique, plain⟩ := record
  cases loosened with
  | same => exact ⟨written, rfl, fun _ _ => .same _⟩
  | variant wrapper _ => exact absurd wrapper (plain _ (List.mem_singleton_self _))
  | @record _ kept changed unknown given _ fewer absent sameKeys each new order distinct =>
    refine ⟨given, rfl, fun key known => ?_⟩
    obtain ⟨⟨name, value⟩, inside, same⟩ := List.mem_map.1 known
    cases same
    rw [Json.member_of_mem unique inside]
    by_cases stays : name ∈ kept.map Prod.fst
    · -- The member is found wherever it is now, since no other has its key.
      obtain ⟨⟨_, again⟩, remains, same⟩ := List.mem_map.1 stays
      cases same
      have equal := Json.member_of_mem unique (fewer.subset remains)
      rw [Json.member_of_mem unique inside] at equal
      obtain ⟨content, there, changes⟩ := exists_changed sameKeys each remains
      have found := order.mem_iff.2 (List.mem_append_left unknown there)
      rw [Json.member_of_mem distinct found, equal]
      exact changes
    · -- What was left out was `null`, and nothing that was added has its key.
      have nothing : value = .null := by
        obtain remains | ⟨_, nothing⟩ := absent (name, value) inside
        · exact absurd (List.mem_map_of_mem remains) stays
        · exact nothing
      have missing : name ∉ given.map Prod.fst := by
        rw [(order.map Prod.fst).mem_iff, List.map_append, List.mem_append, sameKeys]
        intro found
        cases found with
        | inl remains => exact stays remains
        | inr added =>
          obtain ⟨member, further, same⟩ := List.mem_map.1 added
          exact new member further (same ▸ known)
      rw [Json.member_of_notMem missing, nothing]
      exact .same .null

end Loosened

end SelectSql
