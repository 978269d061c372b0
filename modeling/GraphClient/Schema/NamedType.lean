import GraphClient.Keyed
import GraphClient.Schema.TypeRef

/-!
# Named types

The types that the schema defines by name, and the registry of all of them. Interfaces count as
object types. A later definition of a name replaces an earlier one.
-/

namespace GraphClient

/-- An argument, or a field of an input object. -/
structure InputValue where
  name : String
  type : TypeRef
  description : Option String := none
deriving Repr, DecidableEq, Inhabited

/-- A field of an object type. -/
structure FieldDefinition where
  name : String
  type : TypeRef
  arguments : List InputValue := []
  description : Option String := none
deriving Repr, DecidableEq, Inhabited

/-- What a named type consists of. -/
inductive TypeBody where
  | object (fields : List FieldDefinition)
  | inputObject (fields : List InputValue)
  | enumeration (values : List String)
  | union (members : List String)
  | scalar
deriving Repr, DecidableEq, Inhabited

/-- A type that the schema defines. -/
structure NamedType where
  name : String
  body : TypeBody
  description : Option String := none
deriving Repr, DecidableEq, Inhabited

/-- The kind of a body in introspection results. -/
def TypeBody.kindName : TypeBody → String
  | .object _ => "OBJECT"
  | .inputObject _ => "INPUT_OBJECT"
  | .enumeration _ => "ENUM"
  | .union _ => "UNION"
  | .scalar => "SCALAR"

/-- The named types of a schema, in order of their first definition. -/
structure TypeRegistry where
  types : Keyed NamedType := Keyed.empty
deriving Inhabited

namespace TypeRegistry

/-- Defines a type. -/
def insert (registry : TypeRegistry) (type : NamedType) : TypeRegistry :=
  ⟨registry.types.insert type.name type⟩

/-- The registry of a list of definitions. -/
def ofList (types : List NamedType) : TypeRegistry :=
  ⟨Keyed.ofList (types.map fun type => (type.name, type))⟩

/-- The definition of a name. -/
def find? (registry : TypeRegistry) (name : String) : Option NamedType := registry.types.find? name

/-- Whether a name is defined. -/
def contains (registry : TypeRegistry) (name : String) : Bool := registry.types.contains name

/-- The definitions in order. -/
def toList (registry : TypeRegistry) : List NamedType := registry.types.values

/-- The number of definitions. -/
def size (registry : TypeRegistry) : Nat := registry.types.size

/-- The values of an enum. -/
def enumValues? (registry : TypeRegistry) (name : String) : Option (List String) :=
  match registry.find? name with
  | some { body := .enumeration values, .. } => some values
  | _ => none

/-- The fields of an object type. -/
def objectFields? (registry : TypeRegistry) (name : String) : Option (List FieldDefinition) :=
  match registry.find? name with
  | some { body := .object fields, .. } => some fields
  | _ => none

end TypeRegistry

end GraphClient
