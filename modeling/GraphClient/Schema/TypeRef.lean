/-!
# Type references

A reference to a GraphQL type, as fields, arguments and results carry it: a named type under any
number of list and non-null wrappers. A reference that was incomplete where it came from is
`unresolved`.
-/

namespace GraphClient

/-- A reference to a type of the schema. -/
inductive TypeRef where
  | nonNull (inner : TypeRef)
  | list (inner : TypeRef)
  | scalar (name : String)
  | object (name : String)
  | inputObject (name : String)
  | enumeration (name : String)
  | unresolved
deriving Repr, DecidableEq, Inhabited

/-- The kind of the outermost layer of a type reference. -/
inductive TypeKind where
  | nonNull
  | list
  | scalar
  | object
  | inputObject
  | enumeration
  | unknown
deriving Repr, DecidableEq, Inhabited

namespace TypeKind

/-- The kind's name in introspection results. -/
def name : TypeKind → String
  | .nonNull => "NON_NULL"
  | .list => "LIST"
  | .scalar => "SCALAR"
  | .object => "OBJECT"
  | .inputObject => "INPUT_OBJECT"
  | .enumeration => "ENUM"
  | .unknown => "UNKNOWN"

/-- Scalars and enums have no fields to select. -/
def isLeaf : TypeKind → Bool
  | .scalar | .enumeration => true
  | _ => false

end TypeKind

namespace TypeRef

/-- Stands for the name of a type that is not known. -/
def unknownName : String := "unknown"

/-- Makes a reference required; a required one stays as it is. -/
def required : TypeRef → TypeRef
  | .nonNull inner => .nonNull inner
  | type => .nonNull type

/-- The reference without an outer non-null wrapper. -/
def nullable : TypeRef → TypeRef
  | .nonNull inner => inner
  | type => type

/-- The kind of the outermost layer. -/
def kind : TypeRef → TypeKind
  | .nonNull _ => .nonNull
  | .list _ => .list
  | .scalar _ => .scalar
  | .object _ => .object
  | .inputObject _ => .inputObject
  | .enumeration _ => .enumeration
  | .unresolved => .unknown

/-- Whether the outermost wrapper is non-null. -/
def isRequired : TypeRef → Bool
  | .nonNull _ => true
  | _ => false

/-- Whether the outer layer is a list, or a list under one non-null wrapper. -/
def isList (type : TypeRef) : Bool :=
  match type.nullable with
  | .list _ => true
  | _ => false

/-- The reference under all wrappers. -/
def base : TypeRef → TypeRef
  | .nonNull inner => inner.base
  | .list inner => inner.base
  | type => type

/-- The name of the innermost type. -/
def baseName (type : TypeRef) : String :=
  match type.base with
  | .scalar name | .object name | .inputObject name | .enumeration name => name
  | _ => unknownName

/-- The kind of the innermost type. -/
def baseKind (type : TypeRef) : TypeKind := type.base.kind

/-- The number of list wrappers. -/
def listDepth : TypeRef → Nat
  | .nonNull inner => inner.listDepth
  | .list inner => inner.listDepth + 1
  | _ => 0

/-- The reference in GraphQL notation: `[String!]!`. -/
def text : TypeRef → String
  | .nonNull inner => inner.text ++ "!"
  | .list inner => "[" ++ inner.text ++ "]"
  | .scalar name | .object name | .inputObject name | .enumeration name => name
  | .unresolved => "Unknown"

@[simp] theorem isRequired_required (type : TypeRef) : type.required.isRequired = true := by
  cases type <;> rfl

@[simp] theorem required_required (type : TypeRef) : type.required.required = type.required := by
  cases type <;> rfl

theorem base_required (type : TypeRef) : type.required.base = type.base := by
  cases type <;> rfl

end TypeRef

end GraphClient
