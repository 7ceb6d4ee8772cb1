import SelectSql.Json.Value
import SelectSql.Layout.Option

/-! The JSON form of format options. -/

namespace SelectSql

/-- The JSON form of options. -/
def FormatOptions.toJson (options : FormatOptions) : Json :=
  -- The default is written out too, so the form is complete.
  .object [("projections", .string options.projections.text)]

/-- The layout of projections that a JSON value stands for. -/
def ProjectionLayout.ofJson? (value : Json) : Option ProjectionLayout :=
  -- Only a stored name counts, so a layout in capitals or `null` is none.
  value.name?.bind ofName?

/-- The options that a JSON value stands for; a missing layout is the default one. -/
def FormatOptions.ofJson? : Json → Option FormatOptions
  -- A layout that is given must be one; in an object other members do not matter.
  | .object members =>
    match members.lookup "projections" with
    | none => some {}
    | some layout => (ProjectionLayout.ofJson? layout).map fun projections => { projections }
  | .array [] => some {}
  | .array [layout] => (ProjectionLayout.ofJson? layout).map fun projections => { projections }
  | _ => none

/-- Options are read back as they were written. -/
theorem FormatOptions.ofJson?_toJson (options : FormatOptions) :
    FormatOptions.ofJson? options.toJson = some options := by
  -- The one member is found under its key, and its name leads back to the layout.
  simp [toJson, ofJson?, ProjectionLayout.ofJson?, Json.name?, ProjectionLayout.ofName?_text]

end SelectSql
