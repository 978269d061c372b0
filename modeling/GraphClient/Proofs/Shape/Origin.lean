import GraphClient.Proofs.Schema.WellFormed
import GraphClient.Shape.Catalog

/-!
# Where shapes come from

A shape of the catalog is that of a table or of an object type, and each of its fields is declared
by the type, or is a relation of the table. A wrapper that counts as a page declares its rows.

* `Schema.Declares` : a type declares a field.
* `Catalog.origin_of_find?` : a shape is made from a table or from an object type.
* `Shape.Origin.eq_of_field?` : a field of a shape is declared, or is a relation.
* `TypeRegistry.exists_of_connectionNode?` : a page declares its rows.
-/

namespace GraphClient

/-- A type declares a field of a wire type: the registry has it among the fields of the object type,
or it is a column of the table. -/
inductive Schema.Declares (schema : Schema) : String → String → TypeRef → Prop
  | object {type : String} {fields : List FieldDefinition} {definition : FieldDefinition}
      (found : schema.registry.objectFields? type = some fields) (mem : definition ∈ fields) :
      schema.Declares type definition.name definition.type
  | column {table : Table} {field : TableField} (table_mem : table ∈ schema.tables)
      (mem : field ∈ table.fields) : schema.Declares table.name field.name field.type

/-- A shape of a name is that of a table or of an object type of the name. -/
inductive Shape.Origin (schema : Schema) (page : PageNames) : String → Shape → Prop
  | table {table : Table} (mem : table ∈ schema.tables) :
      Shape.Origin schema page table.name (.ofTable schema.registry page table)
  | object {type : String} {fields : List FieldDefinition}
      (found : schema.registry.objectFields? type = some fields) :
      Shape.Origin schema page type (.ofObject schema.registry page type fields)

/-! ## Shapes -/

namespace TypeRegistry

/-- An object type of the registry is found by its name. -/
theorem objectFields?_of_mem {registry : TypeRegistry} (named : registry.Named) {type : NamedType}
    (h : type ∈ registry.toList) {fields : List FieldDefinition}
    (hbody : type.body = .object fields) : registry.objectFields? type.name = some fields := by
  obtain ⟨⟨key, found⟩, hentry, rfl⟩ := List.mem_map.1 h
  have hfind : registry.find? key = some found :=
    Entries.find?_of_mem registry.types.nodup hentry
  show registry.objectFields? found.name = some fields
  rw [named key found hfind, objectFields?, hfind]
  obtain ⟨name, body, description⟩ := found
  obtain rfl : body = .object fields := hbody
  rfl

end TypeRegistry

namespace Catalog

variable {schema : Schema} {page : PageNames}

/-- A shape that was made for tables is that of a table with the name. -/
theorem origin_of_find?_tableShapes {name : String} {shape : Shape}
    (h : (tableShapes schema page).find? name = some shape) :
    Shape.Origin schema page name shape := by
  obtain ⟨table, hmem, heq⟩ := List.mem_map.1 (Entries.mem_of_find?_ofList h)
  obtain ⟨rfl, rfl⟩ := Prod.mk.inj heq
  exact .table hmem

/-- A shape that is found is that of a table or of an object type with the name. -/
theorem origin_of_find? (named : schema.registry.Named) {name : String} {shape : Shape}
    (h : (ofSchema schema page).find? name = some shape) : Shape.Origin schema page name shape := by
  rw [find?, ofSchema, find?_foldl_addObject, Option.or_eq_some_iff] at h
  rcases h with h | ⟨-, h⟩
  · exact origin_of_find?_tableShapes h
  · obtain ⟨type, htype, hshape⟩ := List.exists_of_findSome?_eq_some h
    obtain ⟨rfl, fields, hbody, rfl⟩ := objectShape?_eq_some_iff.1 hshape
    exact .object (schema.registry.objectFields?_of_mem named htype hbody)

end Catalog

/-! ## Fields -/

namespace Shape

variable {registry : TypeRegistry} {page : PageNames} {name : String} {field : ShapeField}

/-- A field of the shape of a table is made from a column or from a relation. -/
theorem cases_of_field?_ofTable {table : Table}
    (h : (ofTable registry page table).field? name = some field) :
    (∃ column ∈ table.fields, column.name = name ∧
      field = .ofWire (.ofWire registry page column.type) column.type column.description) ∨
      ∃ relation ∈ table.relations.fields, relation.name = name ∧
        field = relation.shapeField := by
  rcases List.mem_append.1 (Entries.mem_of_find?_ofList h) with h | h
  · obtain ⟨column, hcolumn, heq⟩ := List.mem_map.1 h
    obtain ⟨rfl, rfl⟩ := Prod.mk.inj heq
    exact .inl ⟨column, hcolumn, rfl, rfl⟩
  · obtain ⟨relation, hrelation, heq⟩ := List.mem_map.1 h
    obtain ⟨rfl, rfl⟩ := Prod.mk.inj heq
    exact .inr ⟨relation, hrelation, rfl, rfl⟩

/-- A field of the shape of an object type is made from its definition. -/
theorem exists_of_field?_ofObject {type : String} {fields : List FieldDefinition}
    (h : (ofObject registry page type fields).field? name = some field) :
    ∃ definition ∈ fields, definition.name = name ∧ field =
      .ofWire (.ofWire registry page definition.type) definition.type definition.description := by
  obtain ⟨definition, hdefinition, heq⟩ := List.mem_map.1 (Entries.mem_of_find?_ofList h)
  obtain ⟨rfl, rfl⟩ := Prod.mk.inj heq
  exact ⟨definition, hdefinition, rfl, rfl⟩

end Shape

/-- A field of a shape is made from the wire type that the type declares for it, or it is that of a
relation of the table. -/
theorem Shape.Origin.eq_of_field? {schema : Schema} {page : PageNames} {type : String}
    {shape : Shape} (origin : Shape.Origin schema page type shape) {name : String}
    {field : ShapeField} (h : shape.field? name = some field) :
    (∃ wire description, schema.Declares type name wire ∧
      field = .ofWire (.ofWire schema.registry page wire) wire description) ∨
      ∃ table ∈ schema.tables, table.name = type ∧ ∃ relation ∈ table.relations.fields,
        relation.name = name ∧ field = relation.shapeField := by
  cases origin with
  | table mem =>
    rcases Shape.cases_of_field?_ofTable h with ⟨column, hcolumn, rfl, rfl⟩ | hrelation
    · exact .inl ⟨column.type, column.description, .column mem hcolumn, rfl⟩
    · exact .inr ⟨_, mem, rfl, hrelation⟩
  | object found =>
    obtain ⟨definition, hdefinition, rfl, rfl⟩ := Shape.exists_of_field?_ofObject h
    exact .inl ⟨definition.type, definition.description, .object found hdefinition, rfl⟩

/-- A field of a shape is declared by the type and holds what its wire type says, or it is a
relation of the table. -/
theorem Shape.Origin.of_field? {schema : Schema} {page : PageNames} {type : String} {shape : Shape}
    (origin : Shape.Origin schema page type shape) {name : String} {field : ShapeField}
    (h : shape.field? name = some field) :
    (∃ wire, schema.Declares type name wire ∧ field.type = .ofWire schema.registry page wire) ∨
      ∃ table ∈ schema.tables, table.name = type ∧ ∃ relation ∈ table.relations.fields,
        relation.name = name ∧ field = relation.shapeField := by
  rcases origin.eq_of_field? h with ⟨wire, description, declares, rfl⟩ | hrelation
  · exact .inl ⟨wire, declares, rfl⟩
  · exact .inr hrelation

namespace TypeRegistry

/-- A page declares its rows, which are objects. -/
theorem exists_of_connectionNode? {registry : TypeRegistry} {page : PageNames} {name node : String}
    (h : registry.connectionNode? page name = some node) :
    ∃ fields rows, registry.objectFields? name = some fields ∧ rows ∈ fields ∧
      rows.name = page.rows ∧ rows.type.baseKind = .object ∧ rows.type.baseName = node := by
  obtain ⟨fields, hfields, h⟩ := Option.bind_eq_some_iff.1 h
  obtain ⟨rows, hrows, h⟩ := Option.bind_eq_some_iff.1 h
  dsimp only at h
  split at h
  · next hpage =>
    simp only [Bool.and_eq_true, beq_iff_eq] at hpage
    have hname := List.find?_some hrows
    exact ⟨fields, rows, hfields, List.mem_of_find?_eq_some hrows, eq_of_beq hname, hpage.1.2,
      Option.some.inj h⟩
  · cases h

end TypeRegistry

/-- What a wire type holds: a value, an object or a list of them, or a page of objects. -/
theorem ShapeType.ofWire_cases (registry : TypeRegistry) (page : PageNames) (wire : TypeRef) :
    (wire.baseKind ≠ .object ∧ ofWire registry page wire = .leaf) ∨
      (wire.baseKind = .object ∧
        (wire.isList = true ∨ registry.connectionNode? page wire.baseName = none) ∧
        ∃ list, ofWire registry page wire = .object wire.baseName list) ∨
      (wire.baseKind = .object ∧ wire.isList = false ∧
        ∃ node, registry.connectionNode? page wire.baseName = some node ∧
          ofWire registry page wire = .connection node) := by
  unfold ofWire
  by_cases hkind : wire.baseKind = .object
  · rw [if_neg (by simp [hkind])]
    cases hlist : wire.isList with
    | true => exact .inr (.inl ⟨hkind, .inl rfl, true, rfl⟩)
    | false =>
      cases hnode : registry.connectionNode? page wire.baseName with
      | none => exact .inr (.inl ⟨hkind, .inr rfl, false, rfl⟩)
      | some node => exact .inr (.inr ⟨hkind, rfl, node, rfl, rfl⟩)
  · exact .inl ⟨hkind, if_pos (by simp [hkind])⟩

end GraphClient
