import GraphClient.Schema.Basic
import GraphClient.Settings.Basic

/-!
# Shapes

The shape of an entity or a payload lists the fields that can be selected from it. A field is a
leaf, leads to one object or a list of objects, or leads to a connection: a page object around the
rows of another shape. The catalog holds the shapes of all tables and of the object types that have
no table.
-/

namespace GraphClient

/-- What a field of a shape holds. -/
inductive ShapeType where
  /-- A value without fields. -/
  | leaf
  /-- An object of a shape, or a plain list of them. -/
  | object (shape : String) (list : Bool)
  /-- A page of objects of a shape. -/
  | connection (node : String)
deriving Repr, DecidableEq, Inhabited

namespace ShapeType

/-- Whether a field of the type has no fields of its own. -/
def isLeaf : ShapeType → Bool
  | .leaf => true
  | _ => false

/-- The shape that a nested selection of such a field is applied to. -/
def related? : ShapeType → Option String
  | .leaf => none
  | .object shape _ => some shape
  | .connection node => some node

theorem isLeaf_iff (type : ShapeType) : type.isLeaf = true ↔ type.related? = none := by
  cases type <;> simp [isLeaf, related?]

end ShapeType

/-- A field that can be selected. -/
structure ShapeField where
  type : ShapeType
  wire : TypeRef
  nullable : Bool
  description : Option String := none
deriving Repr, DecidableEq, Inhabited

/-- A field with the nullability of its wire type. -/
def ShapeField.ofWire (type : ShapeType) (wire : TypeRef) (description : Option String := none) :
    ShapeField := ⟨type, wire, !wire.isRequired, description⟩

/-- The fields that can be selected from an entity or a payload. `keyNames` are the names of the
fields of the key; there may be none. -/
structure Shape where
  name : String
  fields : Keyed ShapeField
  keyNames : List String
deriving Inhabited

namespace Shape

/-- The field with a name. -/
def field? (shape : Shape) (name : String) : Option ShapeField := shape.fields.find? name

/-- Whether a name is that of a leaf. -/
def hasLeaf (shape : Shape) (name : String) : Bool := (shape.field? name).any (·.type.isLeaf)

/-- The names of the leaves. -/
def leafNames (shape : Shape) : List String :=
  (List.filter (fun p => p.2.type.isLeaf) shape.fields.entries).map Prod.fst

end Shape

/-- The kind of objects that a page object holds, if the named type is one: it has a field for the
rows, which is a list of objects, and a field for the number of rows or for the page. -/
def TypeRegistry.connectionNode? (registry : TypeRegistry) (page : PageNames) (name : String) :
    Option String := do
  let fields ← registry.objectFields? name
  let rows ← fields.find? (·.name == page.rows)
  let has (field : String) : Bool := fields.any (·.name == field)
  if rows.type.isList && rows.type.baseKind == .object && (has page.count || has page.info) then
    some rows.type.baseName
  else none

/-- What a field of a wire type holds. -/
def ShapeType.ofWire (registry : TypeRegistry) (page : PageNames) (wire : TypeRef) : ShapeType :=
  if wire.baseKind != .object then .leaf
  else if wire.isList then .object wire.baseName true
  else
    match registry.connectionNode? page wire.baseName with
    | some node => .connection node
    | none => .object wire.baseName false

/-- The field of a relation. -/
def RelationField.shapeField (relation : RelationField) : ShapeField :=
  let wire := TypeRef.object relation.relatedTable
  if relation.kind.isCollection then .ofWire (.connection relation.relatedTable) wire.required
  else .ofWire (.object relation.relatedTable false) wire

namespace Shape

/-- The shape of a table: its columns, then its relations, which win over columns of their name. -/
def ofTable (registry : TypeRegistry) (page : PageNames) (table : Table) : Shape where
  name := table.name
  fields := Keyed.ofList
    (table.fields.map (fun field =>
        (field.name, .ofWire (.ofWire registry page field.type) field.type field.description)) ++
      table.relations.fields.map fun relation => (relation.name, relation.shapeField))
  keyNames := table.primaryKey.names

/-- The fields of an object type. -/
def fieldsOfObject (registry : TypeRegistry) (page : PageNames) (fields : List FieldDefinition) :
    Keyed ShapeField :=
  Keyed.ofList (fields.map fun field =>
    (field.name, .ofWire (.ofWire registry page field.type) field.type field.description))

/-- The shape of an object type. A leaf `id` is its key. -/
def ofObject (registry : TypeRegistry) (page : PageNames) (name : String)
    (fields : List FieldDefinition) : Shape :=
  let fields := fieldsOfObject registry page fields
  { name, fields, keyNames := if (fields.find? "id").any (·.type.isLeaf) then ["id"] else [] }

end Shape

/-- The shapes of a schema by name. -/
structure Catalog where
  shapes : Keyed Shape
deriving Inhabited

namespace Catalog

/-- The shape with a name. -/
def find? (catalog : Catalog) (name : String) : Option Shape := catalog.shapes.find? name

/-- Whether there is a shape with a name. -/
def contains (catalog : Catalog) (name : String) : Bool := catalog.shapes.contains name

/-- The shapes in order. -/
def toList (catalog : Catalog) : List Shape := catalog.shapes.values

/-- The shapes of the tables; a later table wins over an earlier one of its name. -/
def tableShapes (schema : Schema) (page : PageNames) : Keyed Shape :=
  Keyed.ofList (schema.tables.map fun table =>
    (table.name, Shape.ofTable schema.registry page table))

/-- Adds the shape of a named type if it is an object type and its name is free. -/
def addObject (registry : TypeRegistry) (page : PageNames) (shapes : Keyed Shape)
    (type : NamedType) : Keyed Shape :=
  match type.body with
  | .object fields =>
    if shapes.contains type.name then shapes
    else shapes.insert type.name (Shape.ofObject registry page type.name fields)
  | _ => shapes

/-- The catalog of a schema. A table wins over an object type of its name. -/
def ofSchema (schema : Schema) (page : PageNames) : Catalog :=
  ⟨schema.registry.toList.foldl (addObject schema.registry page) (tableShapes schema page)⟩

/-- The shape that a type adds under a name: that of an object type, if the name is its own. -/
def objectShape? (registry : TypeRegistry) (page : PageNames) (name : String) (type : NamedType) :
    Option Shape :=
  match type.body with
  | .object fields => if type.name = name then some (.ofObject registry page name fields) else none
  | _ => none

theorem objectShape?_eq_some_iff {registry : TypeRegistry} {page : PageNames} {name : String}
    {type : NamedType} {shape : Shape} :
    objectShape? registry page name type = some shape ↔ type.name = name ∧
      ∃ fields, type.body = .object fields ∧ shape = .ofObject registry page name fields := by
  unfold objectShape?
  cases type.body with
  | object fields => by_cases hname : type.name = name <;> simp [hname, eq_comm]
  | _ => simp

/-- What is there stays; under a free name there is what the type adds. -/
theorem find?_addObject (registry : TypeRegistry) (page : PageNames) (shapes : Keyed Shape)
    (type : NamedType) (name : String) :
    (addObject registry page shapes type).find? name =
      (shapes.find? name).or (objectShape? registry page name type) := by
  unfold addObject objectShape?
  cases type.body with
  | object fields =>
    dsimp only
    by_cases hname : type.name = name
    · subst hname
      cases hfound : shapes.find? type.name with
      | none =>
        have hfree : ¬ shapes.contains type.name = true := by simp [Keyed.contains, hfound]
        rw [if_neg hfree, Keyed.find?_insert, if_pos rfl, Option.none_or, if_pos rfl]
      | some shape =>
        have htaken : shapes.contains type.name = true := by simp [Keyed.contains, hfound]
        rw [if_pos htaken, hfound, Option.some_or]
    · rw [if_neg hname, Option.or_none]
      split
      · rfl
      · rw [Keyed.find?_insert, if_neg hname]
  | _ => exact Option.or_none.symm

/-- What is there stays; under a free name there is what the first type adds that adds something. -/
theorem find?_foldl_addObject (registry : TypeRegistry) (page : PageNames) (name : String)
    (types : List NamedType) : ∀ shapes : Keyed Shape,
      (types.foldl (addObject registry page) shapes).find? name =
        (shapes.find? name).or (types.findSome? (objectShape? registry page name)) := by
  induction types with
  | nil => exact fun shapes => Option.or_none.symm
  | cons type rest ih =>
    intro shapes
    rw [List.foldl_cons, ih, find?_addObject, Option.or_assoc, List.findSome?_cons]
    cases objectShape? registry page name type <;> rfl

/-- Every table has a shape in the catalog. -/
theorem exists_find?_of_mem {schema : Schema} {table : Table} (h : table ∈ schema.tables)
    (page : PageNames) : ∃ shape, (ofSchema schema page).find? table.name = some shape := by
  have hname : table.name ∈ (tableShapes schema page).keys := by
    rw [tableShapes, Keyed.keys, Keyed.ofList, Entries.mem_keys_ofList, Entries.keys]
    exact List.mem_map.2 ⟨_, List.mem_map.2 ⟨table, h, rfl⟩, rfl⟩
  obtain ⟨shape, hshape⟩ := Option.isSome_iff_exists.1 ((Keyed.contains_iff _ _).2 hname)
  refine ⟨shape, ?_⟩
  rw [find?, ofSchema, find?_foldl_addObject]
  exact congrArg (Option.or · _) hshape

end Catalog

end GraphClient
