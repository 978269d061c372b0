import GraphClient.Selection.Basic

/-!
# Settings

What a caller may decide about the generated client: the names of page fields and arguments, whether
hooks are written, how cache keys are shared and related, which fields are selected by default, how
scalars are typed, and what a deletion answers.
-/

namespace GraphClient

/-- The names of the fields and arguments of a page of rows. -/
structure PageNames where
  rows : String := "nodes"
  count : String := "totalCount"
  info : String := "pageInfo"
  filter : String := "filter"
  order : String := "orderBy"
deriving Repr, DecidableEq, Inhabited

/-- Whether cache keys are made in one shared file or spelled out where they are used. -/
inductive KeyStyle where
  | centralized
  | inline
deriving Repr, DecidableEq, Inhabited

/-- The entity that another one belongs to, and the field that refers to it. An explicit list of
ancestors, nearest first, takes the place of the ones found by going from parent to parent. -/
structure Parentage where
  parent : String
  foreignKey : String
  ancestors : Option (List String) := none
deriving Repr, DecidableEq, Inhabited

/-- How cache keys are made. Parents are stored under the lower-case name of the child. -/
structure KeySettings where
  style : KeyStyle := .centralized
  parents : Keyed Parentage := Keyed.empty
  mutationKeys : Bool := true
deriving Inhabited

/-- Which fields are selected where a caller names none. -/
inductive DefaultPolicy where
  /-- The fields of the primary key, or else the first leaf. -/
  | primaryKey
  /-- All leaves. -/
  | allScalars
deriving Repr, DecidableEq, Inhabited

/-- The configured selections. `strictDepth` bounds the nesting of selections, and `customDepth`
that of the selections made up for custom operations. -/
structure SelectionSettings where
  strictDepth : Nat := 10
  policy : DefaultPolicy := .primaryKey
  entities : Keyed Selection := Keyed.empty
  operations : Keyed Selection := Keyed.empty
  customDepth : Nat := 2
deriving Inhabited

/-- How a scalar is typed that is neither built in nor overridden. -/
inductive UnknownScalars where
  /-- By its own name. -/
  | passThrough
  /-- As an unknown type. -/
  | unknown
deriving Repr, DecidableEq, Inhabited

/-- How scalars are typed. -/
structure ScalarSettings where
  unknown : UnknownScalars := .passThrough
  overrides : Keyed String := Keyed.empty
deriving Inhabited

/-- What a deletion answers. -/
inductive DeleteAnswer where
  /-- The deleted row. -/
  | entity
  /-- Its key alone. -/
  | key
deriving Repr, DecidableEq, Inhabited

/-- All settings of a client. -/
structure Settings where
  page : PageNames := {}
  hooks : Bool := true
  keys : KeySettings := {}
  selection : SelectionSettings := {}
  scalars : ScalarSettings := {}
  deleteAnswer : DeleteAnswer := .entity
deriving Inhabited

end GraphClient
