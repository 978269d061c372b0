import GraphClient.Json.Decode
import GraphClient.Json.Outline
import GraphClient.Schema.TypeRef

/-!
# Type references in introspection results

An introspected reference is an object with the fields `kind`, `name` and `ofType`. Wrappers are
read from `ofType`, named types from `name`; interfaces and unions count as objects. A reference
whose kind is unknown, or that lacks what its kind needs, is unresolved. The field `ofType` is read,
and can be refused, even where the kind has no use for it.
-/

namespace GraphClient

namespace TypeRef

/-- A reference from its kind, its name and the reference that it wraps. -/
def ofParts (kind name : Option String) (inner : Option TypeRef) : TypeRef :=
  match kind, name with
  | some "NON_NULL", _ => (inner.map .nonNull).getD .unresolved
  | some "LIST", _ => (inner.map .list).getD .unresolved
  | some "SCALAR", some name => .scalar name
  | some "OBJECT", some name => .object name
  | some "INTERFACE", some name => .object name
  | some "UNION", some name => .object name
  | some "INPUT_OBJECT", some name => .inputObject name
  | some "ENUM", some name => .enumeration name
  | _, _ => .unresolved

mutual

/-- Reads a reference. -/
def ofJson : Json → Json.Decoded TypeRef
  | .object fields => do
    let kind ← Entries.optional fields "kind" Json.toText
    let name ← Entries.optional fields "name" Json.toText
    let _ ← Entries.only? fields ["ofType"]
    let inner ← innerOfFields fields
    return ofParts kind name inner
  | _ => .error .kind

/-- Reads the reference in the field `ofType`, which may be missing or null. -/
def innerOfFields : List (String × Json) → Json.Decoded (Option TypeRef)
  | [] => .ok none
  | (key, value) :: rest =>
    if key = "ofType" then
      match value with
      | .null => .ok none
      | value => (ofJson value).map some
    else innerOfFields rest

end

/-- What is looked at in a reference with at most `depth` references inside. -/
def outline : Nat → Json.Outline
  | 0 => .fields ["kind", "name"]
  | depth + 1 => .record [("kind", .whole), ("name", .whole), ("ofType", outline depth)]

/-- The introspection result for a reference. An unresolved one is an object without fields. -/
def toJson : TypeRef → Json
  | .nonNull inner => .object [("kind", .string "NON_NULL"), ("ofType", inner.toJson)]
  | .list inner => .object [("kind", .string "LIST"), ("ofType", inner.toJson)]
  | .scalar name => .object [("kind", .string "SCALAR"), ("name", .string name)]
  | .object name => .object [("kind", .string "OBJECT"), ("name", .string name)]
  | .inputObject name => .object [("kind", .string "INPUT_OBJECT"), ("name", .string name)]
  | .enumeration name => .object [("kind", .string "ENUM"), ("name", .string name)]
  | .unresolved => .object []

end TypeRef

end GraphClient
