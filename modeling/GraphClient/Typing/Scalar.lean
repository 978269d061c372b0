import GraphClient.Settings.Basic

/-!
# Scalars

The built-in scalars with their types and the filters they are matched with. An override replaces
the type of a scalar and takes its filter away.
-/

namespace GraphClient

/-- The groups of operators a filter may have. -/
inductive FilterFamily where
  | equality
  | ordered
  | text
  | json
deriving Repr, DecidableEq, Inhabited

/-- How the operand of an operator is typed. -/
inductive Operand where
  /-- True or false. -/
  | flag
  /-- The scalar itself. -/
  | value
  /-- A list of the scalar. -/
  | list
  /-- A string, whatever the scalar is. -/
  | text
deriving Repr, DecidableEq, Inhabited

/-- An operator of a filter. -/
structure Operator where
  name : String
  operand : Operand
  description : String
deriving Repr, DecidableEq, Inhabited

/-- The filter that a scalar is matched with. -/
structure Filter where
  name : String
  family : FilterFamily
deriving Repr, DecidableEq, Inhabited

/-- A built-in scalar. -/
structure Scalar where
  name : String
  typeName : String
  filter : Option Filter
deriving Repr, DecidableEq, Inhabited

namespace FilterFamily

/-- The operators of every filter. -/
def equalityOperators : List Operator :=
  [⟨"isNull", .flag,
      "Is null (if `true` is specified) or is not null (if `false` is specified)."⟩,
    ⟨"equalTo", .value, "Equal to the specified value."⟩,
    ⟨"notEqualTo", .value, "Not equal to the specified value."⟩,
    ⟨"distinctFrom", .value,
      "Not equal to the specified value, treating null like an ordinary value."⟩,
    ⟨"notDistinctFrom", .value,
      "Equal to the specified value, treating null like an ordinary value."⟩,
    ⟨"in", .list, "Included in the specified list."⟩,
    ⟨"notIn", .list, "Not included in the specified list."⟩]

/-- The operators that compare by order. -/
def orderOperators : List Operator :=
  [⟨"lessThan", .value, "Less than the specified value."⟩,
    ⟨"lessThanOrEqualTo", .value, "Less than or equal to the specified value."⟩,
    ⟨"greaterThan", .value, "Greater than the specified value."⟩,
    ⟨"greaterThanOrEqualTo", .value, "Greater than or equal to the specified value."⟩]

/-- The operators that look into a text. -/
def textOperators : List Operator :=
  [⟨"includes", .value, "Contains the specified string (case-sensitive)."⟩,
    ⟨"notIncludes", .value, "Does not contain the specified string (case-sensitive)."⟩,
    ⟨"includesInsensitive", .value, "Contains the specified string (case-insensitive)."⟩,
    ⟨"startsWith", .value, "Starts with the specified string (case-sensitive)."⟩,
    ⟨"endsWith", .value, "Ends with the specified string (case-sensitive)."⟩,
    ⟨"like", .text, "Matches the specified pattern (case-sensitive)."⟩,
    ⟨"likeInsensitive", .text, "Matches the specified pattern (case-insensitive)."⟩]

/-- The operators that look into a JSON value. -/
def jsonOperators : List Operator :=
  [⟨"contains", .value, "Contains the specified JSON."⟩,
    ⟨"containedBy", .value, "Contained by the specified JSON."⟩,
    ⟨"containsKey", .text, "Contains the specified key."⟩]

/-- The operators of a family, in the order in which they are written. -/
def operators : FilterFamily → List Operator
  | .equality => equalityOperators
  | .ordered => equalityOperators ++ orderOperators
  | .text => equalityOperators ++ orderOperators ++ textOperators
  | .json => equalityOperators ++ jsonOperators

end FilterFamily

namespace Scalar

/-- The built-in scalars. -/
def builtins : List Scalar :=
  [⟨"String", "string", some ⟨"StringFilter", .text⟩⟩,
    ⟨"ID", "string", some ⟨"IDFilter", .ordered⟩⟩,
    ⟨"Int", "number", some ⟨"IntFilter", .ordered⟩⟩,
    ⟨"Float", "number", some ⟨"FloatFilter", .ordered⟩⟩,
    ⟨"Boolean", "boolean", some ⟨"BooleanFilter", .equality⟩⟩,
    ⟨"UUID", "string", some ⟨"UUIDFilter", .ordered⟩⟩,
    ⟨"Datetime", "string", some ⟨"DatetimeFilter", .ordered⟩⟩,
    ⟨"DateTime", "string", some ⟨"DatetimeFilter", .ordered⟩⟩,
    ⟨"Date", "string", some ⟨"DateFilter", .ordered⟩⟩,
    ⟨"Time", "string", some ⟨"TimeFilter", .ordered⟩⟩,
    ⟨"BigInt", "string", some ⟨"BigIntFilter", .ordered⟩⟩,
    ⟨"BigFloat", "string", some ⟨"BigFloatFilter", .ordered⟩⟩,
    ⟨"JSON", "unknown", some ⟨"JSONFilter", .json⟩⟩,
    ⟨"Cursor", "string", none⟩]

/-- The built-in scalar with a name. -/
def builtin? (name : String) : Option Scalar := builtins.find? (·.name == name)

end Scalar

namespace ScalarSettings

/-- The type of a scalar, if it is known. -/
def typeName? (settings : ScalarSettings) (name : String) : Option String :=
  settings.overrides.find? name <|> (Scalar.builtin? name).map (·.typeName)

/-- The filter of a scalar, if it has one. -/
def filter? (settings : ScalarSettings) (name : String) : Option Filter :=
  if settings.overrides.contains name then none else (Scalar.builtin? name).bind (·.filter)

/-- Whether the type of a scalar is known. -/
def isKnown (settings : ScalarSettings) (name : String) : Bool := (settings.typeName? name).isSome

end ScalarSettings

end GraphClient
