import GraphClient.Json.Reader
import GraphClient.Schema.Basic
import GraphClient.Schema.TypeRefWire

/-!
# Schemas in JSON

Reading of tables, custom root fields and named types. Fields that the library does not know are
passed over; a known field may not be repeated. In a text, a field that is passed over only has to
have the form of a value.
-/

namespace GraphClient

open Json (Decoded)

/-- Reads a column. -/
def TableField.ofJson (value : Json) : Decoded TableField := do
  let fields ← value.toFields
  return {
    name := ← fields.required "name" Json.toText
    type := ← fields.required "type" TypeRef.ofJson
    description := ← fields.optional "description" Json.toText }

/-- Reads a relation. -/
def Relation.ofJson (value : Json) : Decoded Relation := do
  let fields ← value.toFields
  return {
    fieldName := ← fields.optional "fieldName" Json.toText
    relatedTable := ← fields.required "relatedTable" Json.toText }

/-- Reads the relations of a table. -/
def Relations.ofJson (value : Json) : Decoded Relations := do
  let fields ← value.toFields
  let relations (name : String) : Decoded (List Relation) :=
    fields.defaulted name [] (Json.toListOf Relation.ofJson)
  return {
    belongsTo := ← relations "belongsTo"
    hasOne := ← relations "hasOne"
    hasMany := ← relations "hasMany"
    manyToMany := ← relations "manyToMany" }

/-- Reads the given names of root fields. -/
def RootFieldNames.ofJson (value : Json) : Decoded RootFieldNames := do
  let fields ← value.toFields
  let name (key : String) : Decoded (Option String) := fields.optional key Json.toText
  return {
    all := ← name "all"
    one := ← name "one"
    create := ← name "create"
    update := ← name "update"
    delete := ← name "delete" }

/-- Reads the given names of derived types. -/
def Inflection.ofJson (value : Json) : Decoded Inflection := do
  let fields ← value.toFields
  let name (key : String) : Decoded (Option String) := fields.optional key Json.toText
  return {
    tableType := ← name "tableType"
    allRows := ← name "allRows"
    tableFieldName := ← name "tableFieldName"
    filterType := ← name "filterType"
    orderByType := ← name "orderByType"
    inputType := ← name "inputType"
    createInputType := ← name "createInputType"
    patchType := ← name "patchType"
    updateInputType := ← name "updateInputType"
    deleteInputType := ← name "deleteInputType" }

/-- Reads a declared key. -/
def KeyConstraint.ofJson (value : Json) : Decoded KeyConstraint := do
  let fields ← value.toFields
  return {
    name := ← fields.optional "name" Json.toText
    fields := ← fields.defaulted "fields" [] (Json.toListOf Json.toText) }

/-- Reads the declared constraints of a table. -/
def Constraints.ofJson (value : Json) : Decoded Constraints := do
  let fields ← value.toFields
  return { primaryKey := ← fields.defaulted "primaryKey" [] (Json.toListOf KeyConstraint.ofJson) }

/-- Reads a table. -/
def Table.ofJson (value : Json) : Decoded Table := do
  let fields ← value.toFields
  return {
    name := ← fields.required "name" Json.toText
    fields := ← fields.defaulted "fields" [] (Json.toListOf TableField.ofJson)
    relations := ← fields.defaulted "relations" {} Relations.ofJson
    rootFields := ← fields.optional "query" RootFieldNames.ofJson
    inflection := ← fields.optional "inflection" Inflection.ofJson
    constraints := ← fields.optional "constraints" Constraints.ofJson
    description := ← fields.optional "description" Json.toText }

/-- Reads an argument or a field of an input object. -/
def InputValue.ofJson (value : Json) : Decoded InputValue := do
  let fields ← value.toFields
  return {
    name := ← fields.required "name" Json.toText
    type := ← fields.required "type" TypeRef.ofJson
    description := ← fields.optional "description" Json.toText }

/-- Reads a field of an object type. -/
def FieldDefinition.ofJson (value : Json) : Decoded FieldDefinition := do
  let fields ← value.toFields
  return {
    name := ← fields.required "name" Json.toText
    type := ← fields.required "type" TypeRef.ofJson
    arguments := ← fields.defaulted "args" [] (Json.toListOf InputValue.ofJson)
    description := ← fields.optional "description" Json.toText }

/-- Reads a name that is given bare or as the field `name` of an object. -/
def NamedType.memberOfJson : Json → Decoded String
  | .string name => .ok name
  | value => do
    let fields ← value.toFields
    fields.required "name" Json.toText

/-- Reads a named type. All the lists that a kind may have are read, whatever the kind is. -/
def NamedType.ofJson (value : Json) : Decoded NamedType := do
  let fields ← value.toFields
  let name ← fields.required "name" Json.toText
  let kind ← fields.required "kind" Json.toText
  let description ← fields.optional "description" Json.toText
  let objectFields ← fields.optional "fields" (Json.toListOf FieldDefinition.ofJson)
  let inputFields ← fields.optional "inputFields" (Json.toListOf InputValue.ofJson)
  let enumValues ← fields.optional "enumValues" (Json.toListOf memberOfJson)
  let possibleTypes ← fields.optional "possibleTypes" (Json.toListOf memberOfJson)
  let body : TypeBody :=
    match kind with
    | "OBJECT" | "INTERFACE" => .object (objectFields.getD [])
    | "INPUT_OBJECT" => .inputObject (inputFields.getD [])
    | "ENUM" => .enumeration (enumValues.getD [])
    | "UNION" => .union (possibleTypes.getD [])
    | _ => .scalar
  return { name, body, description }

/-- Reads a registry from the list of its definitions. -/
def TypeRegistry.ofJson (value : Json) : Decoded TypeRegistry :=
  (Json.toListOf NamedType.ofJson value).map TypeRegistry.ofList

/-- Reads a custom root field. -/
def CustomOperation.ofJson (kind : OperationKind) (value : Json) : Decoded CustomOperation := do
  let fields ← value.toFields
  return {
    name := ← fields.required "name" Json.toText
    kind := kind
    arguments := ← fields.defaulted "args" [] (Json.toListOf InputValue.ofJson)
    returnType := ← fields.required "returnType" TypeRef.ofJson
    description := ← fields.optional "description" Json.toText }

/-- Reads the custom queries and mutations. -/
def CustomOperation.groupsOfJson (value : Json) :
    Decoded (List CustomOperation × List CustomOperation) := do
  let fields ← value.toFields
  let queries ← fields.defaulted "queries" [] (Json.toListOf (ofJson .query))
  let mutations ← fields.defaulted "mutations" [] (Json.toListOf (ofJson .mutation))
  return (queries, mutations)

/-! ## What is looked at -/

namespace Schema.Outline

open Json (Outline)

/-- A type reference. A text does not nest deeper. -/
def type : Outline := TypeRef.outline Json.maxDepth

/-- An argument, a column or a field of an input object. -/
def typed : Outline :=
  .record [("name", .whole), ("type", type), ("description", .whole)]

/-- A field of an object type. -/
def fieldDefinition : Outline :=
  .record [("name", .whole), ("type", type), ("args", .listOf typed), ("description", .whole)]

/-- A relation. -/
def relation : Outline := .fields ["fieldName", "relatedTable"]

/-- The relations of a table. -/
def relations : Outline :=
  .record [("belongsTo", .listOf relation), ("hasOne", .listOf relation),
    ("hasMany", .listOf relation), ("manyToMany", .listOf relation)]

/-- The given names of root fields. -/
def rootFieldNames : Outline := .fields ["all", "one", "create", "update", "delete"]

/-- The given names of derived types. -/
def inflection : Outline :=
  .fields ["tableType", "allRows", "tableFieldName", "filterType", "orderByType", "inputType",
    "createInputType", "patchType", "updateInputType", "deleteInputType"]

/-- The constraints of a table. -/
def constraints : Outline := .record [("primaryKey", .listOf (.fields ["name", "fields"]))]

/-- A table. -/
def table : Outline :=
  .record [("name", .whole), ("fields", .listOf typed), ("relations", relations),
    ("query", rootFieldNames), ("inflection", inflection), ("constraints", constraints),
    ("description", .whole)]

/-- A custom root field. -/
def operation : Outline :=
  .record [("name", .whole), ("args", .listOf typed), ("returnType", type),
    ("description", .whole)]

/-- A named type. The lists of its members are looked at whole, as a member may be a bare name or an
object. -/
def namedType : Outline :=
  .record [("name", .whole), ("kind", .whole), ("description", .whole),
    ("fields", .listOf fieldDefinition), ("inputFields", .listOf typed), ("enumValues", .whole),
    ("possibleTypes", .whole)]

end Schema.Outline

namespace Schema

/-- What is looked at in a schema. -/
def outline : Json.Outline :=
  .record [("tables", .listOf Outline.table),
    ("operations", .record [("queries", .listOf Outline.operation),
      ("mutations", .listOf Outline.operation)]),
    ("registry", .listOf Outline.namedType)]

/-- Reads a schema. -/
def ofJson (value : Json) : Decoded Schema := do
  let fields ← value.toFields
  let tables ← fields.defaulted "tables" [] (Json.toListOf Table.ofJson)
  let (queries, mutations) ←
    fields.defaulted "operations" ([], []) CustomOperation.groupsOfJson
  let registry ← fields.defaulted "registry" {} TypeRegistry.ofJson
  return { tables, queries, mutations, registry }

/-- Reads a schema from a JSON text. -/
def ofText (text : String) : Decoded Schema :=
  match Json.ofOutline? outline text with
  | some value => ofJson value
  | none => .error .kind

end Schema

end GraphClient
