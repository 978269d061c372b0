import GraphClient.Proofs.Shape.Origin

/-!
# The invariant of the catalog

The catalog is built in two loops. The first one writes the shape of every table under its name, in
place of the shape of an earlier table of the name; the second one adds the object types whose names
are still free. What the other parts rely on is read off what is found under a name after both.

* `Catalog.find?_ofSchema` : what is found under a name.
* `TypeRegistry.listsObject_iff` : the object types of a registry are those whose fields it finds.
* `Schema.fieldDeclaration?`, `Catalog.type_field?_of_find?` : what a schema says about a field of a
  type, and that the shape of the type holds it.
* `ShapeField.Sound`, `Shape.sound_ofTable`, `Shape.sound_ofObject` : a field holds what its wire
  type says, whichever of the three ways it was made in.
* `Catalog.Invariant`, `Catalog.invariant_ofSchema` : what the other parts rely on.
-/

namespace GraphClient

variable {registry : TypeRegistry} {page : PageNames}

/-! ## What is found under a name -/

/-- The last table with a name. -/
def Schema.lastTable? (schema : Schema) (name : String) : Option Table :=
  schema.tables.reverse.find? (·.name == name)

/-- The last table with a name has the name. -/
theorem Schema.name_eq_of_lastTable? {schema : Schema} {name : String} {table : Table}
    (last : schema.lastTable? name = some table) : table.name = name := by
  simpa using List.find?_some last

/-- There is a last table with a name exactly if there is any. -/
theorem Schema.exists_lastTable?_iff (schema : Schema) (name : String) :
    (∃ last, schema.lastTable? name = some last) ↔ ∃ table ∈ schema.tables, table.name = name := by
  rw [lastTable?, ← Option.isSome_iff_exists, List.find?_isSome]
  simp

/-- An object type of a name is among the types that the registry lists. -/
def TypeRegistry.ListsObject (registry : TypeRegistry) (name : String) : Prop :=
  ∃ type ∈ registry.toList, type.name = name ∧ ∃ fields, type.body = .object fields

/-- Where every type is stored under its name, the object types are those whose fields are found. -/
theorem TypeRegistry.listsObject_iff (named : registry.Named) (name : String) :
    registry.ListsObject name ↔ ∃ fields, registry.objectFields? name = some fields := by
  constructor
  · rintro ⟨type, hmem, rfl, fields, hbody⟩
    exact ⟨fields, objectFields?_of_mem named hmem hbody⟩
  · rintro ⟨fields, hfields⟩
    unfold objectFields? at hfields
    split at hfields
    · next body description hfind =>
      have hmem := Entries.mem_of_find? hfind
      exact ⟨_, List.mem_map.2 ⟨_, hmem, rfl⟩, named name _ hfind, body, rfl⟩
    · cases hfields

namespace Catalog

/-- Of the tables with a name the last one gives the shape. -/
theorem find?_tableShapes (schema : Schema) (page : PageNames) (name : String) :
    (tableShapes schema page).find? name =
      (schema.lastTable? name).map (Shape.ofTable schema.registry page) :=
  Keyed.find?_ofList_map schema.tables (·.name) _ name

/-- The shape of the last table of a name is found, and without a table that of the first object
type of the name. -/
theorem find?_ofSchema (schema : Schema) (page : PageNames) (name : String) :
    (ofSchema schema page).find? name =
      ((schema.lastTable? name).map (Shape.ofTable schema.registry page)).or
        (schema.registry.toList.findSome? (objectShape? schema.registry page name)) := by
  rw [find?, ofSchema, find?_foldl_addObject, find?_tableShapes]

/-- What is found is the shape of the last table of the name, or there is no such table and it is
the shape of an object type that the registry lists. -/
theorem cases_of_find? {schema : Schema} {name : String} {shape : Shape}
    (h : (ofSchema schema page).find? name = some shape) :
    (∃ table, schema.lastTable? name = some table ∧
      shape = .ofTable schema.registry page table) ∨
    schema.lastTable? name = none ∧ ∃ type ∈ schema.registry.toList, type.name = name ∧
      ∃ fields, type.body = .object fields ∧
        shape = .ofObject schema.registry page name fields := by
  rw [find?_ofSchema, Option.or_eq_some_iff] at h
  rcases h with h | ⟨hnone, h⟩
  · obtain ⟨table, htable, rfl⟩ := Option.map_eq_some_iff.1 h
    exact .inl ⟨table, htable, rfl⟩
  · obtain ⟨type, hmem, htype⟩ := List.exists_of_findSome?_eq_some h
    obtain ⟨hname, fields, hbody, rfl⟩ := objectShape?_eq_some_iff.1 htype
    exact .inr ⟨Option.map_eq_none_iff.1 hnone, type, hmem, hname, fields, hbody, rfl⟩

end Catalog

/-! ## What is said about a field -/

namespace Table

/-- The last column with a name. -/
def lastColumn? (table : Table) (name : String) : Option TableField :=
  table.fields.reverse.find? (·.name == name)

/-- The last relation with a name. -/
def lastRelation? (table : Table) (name : String) : Option RelationField :=
  table.relations.fields.reverse.find? (·.name == name)

end Table

/-- What a schema says about a field: it has a wire type, or it is a relation of a table. -/
inductive FieldDeclaration where
  | typed (wire : TypeRef)
  | relation (field : RelationField)

/-- What the shape of the type holds for the field. -/
def FieldDeclaration.shapeType (registry : TypeRegistry) (page : PageNames) :
    FieldDeclaration → ShapeType
  | .typed wire => .ofWire registry page wire
  | .relation field => field.shapeField.type

/-- What a schema says about a field of a type. A table of the name counts before an object type
of the registry, a relation of a table before a column, and the last one of a name before the
others. -/
def Schema.fieldDeclaration? (schema : Schema) (type name : String) : Option FieldDeclaration :=
  match schema.lastTable? type with
  | some table =>
    ((table.lastRelation? name).map .relation).or
      ((table.lastColumn? name).map fun column => .typed column.type)
  | none =>
    (schema.registry.objectFields? type).bind fun fields =>
      (fields.reverse.find? (·.name == name)).map fun definition => .typed definition.type

namespace Shape

/-- In the shape of a table a relation wins over a column, and the last one of a name over the
others. -/
theorem type_field?_ofTable (table : Table) (name : String) :
    ((ofTable registry page table).field? name).map (·.type) =
      ((table.lastRelation? name).map fun relation => relation.shapeField.type).or
        ((table.lastColumn? name).map fun column => .ofWire registry page column.type) := by
  show (Entries.find? (Entries.ofList _) name).map _ = _
  rw [Entries.find?_ofList, List.reverse_append, Entries.find?_append, ← List.map_reverse,
    ← List.map_reverse, Entries.find?_map, Entries.find?_map, Option.map_or, Option.map_map,
    Option.map_map]
  rfl

/-- In the shape of an object type the last definition of a name wins over the others. -/
theorem type_field?_ofObject (type : String) (fields : List FieldDefinition) (name : String) :
    ((ofObject registry page type fields).field? name).map (·.type) =
      (fields.reverse.find? (·.name == name)).map fun definition =>
        .ofWire registry page definition.type := by
  show (Entries.find? (Entries.ofList _) name).map _ = _
  rw [Entries.find?_ofList, ← List.map_reverse, Entries.find?_map, Option.map_map]
  rfl

end Shape

/-- The shape of a type holds for a field what the schema says about it. -/
theorem Catalog.type_field?_of_find? {schema : Schema} (named : schema.registry.Named)
    {type : String} {shape : Shape} (h : (ofSchema schema page).find? type = some shape)
    (name : String) :
    (shape.field? name).map (·.type) =
      (schema.fieldDeclaration? type name).map (·.shapeType schema.registry page) := by
  rw [Schema.fieldDeclaration?]
  rcases cases_of_find? h with ⟨table, hlast, rfl⟩ | ⟨hlast, object, hmem, rfl, fields, hbody, rfl⟩
  · rw [hlast, Shape.type_field?_ofTable]
    dsimp only
    rw [Option.map_or, Option.map_map, Option.map_map]
    rfl
  · rw [hlast, schema.registry.objectFields?_of_mem named hmem hbody, Shape.type_field?_ofObject]
    dsimp only
    rw [Option.bind_some, Option.map_map]
    rfl

/-! ## Fields -/

/-- What is tested to be a leaf is one. -/
theorem ShapeType.eq_leaf_of_isLeaf {type : ShapeType} (h : type.isLeaf = true) : type = .leaf := by
  cases type with
  | leaf => rfl
  | object shape list => cases h
  | connection node => cases h

/-- A field holds what its wire type says. It is a leaf unless the innermost type is an object, it
may be null unless the wire type is required, and the shape that it leads to is that of the
innermost type, or that of the rows if the innermost type is a page. -/
structure ShapeField.Sound (registry : TypeRegistry) (page : PageNames) (field : ShapeField) :
    Prop where
  leaf_iff : field.type = .leaf ↔ field.wire.baseKind ≠ .object
  nullable_eq : field.nullable = !field.wire.isRequired
  related : ∀ shape, field.type.related? = some shape →
    shape = field.wire.baseName ∨ registry.connectionNode? page field.wire.baseName = some shape

/-- A field over an object type is sound if it leads to the object type, or to the rows of it. -/
theorem ShapeField.sound_of_related {type : ShapeType} {wire : TypeRef} {shape : String}
    (hkind : wire.baseKind = .object) (hrelated : type.related? = some shape)
    (hshape : shape = wire.baseName ∨ registry.connectionNode? page wire.baseName = some shape)
    (description : Option String) : (ofWire type wire description).Sound registry page where
  leaf_iff := by
    refine iff_of_false ?_ (fun hvalue => hvalue hkind)
    rintro rfl
    cases hrelated
  nullable_eq := rfl
  related := by
    intro found hfound
    obtain rfl := Option.some.inj (hrelated.symm.trans hfound)
    exact hshape

/-- A column, and a field of an object type. -/
theorem ShapeField.sound_ofWire (registry : TypeRegistry) (page : PageNames) (wire : TypeRef)
    (description : Option String) :
    (ofWire (.ofWire registry page wire) wire description).Sound registry page := by
  rcases ShapeType.ofWire_cases registry page wire with
    ⟨hkind, htype⟩ | ⟨hkind, -, list, htype⟩ | ⟨hkind, -, node, hnode, htype⟩
  · rw [htype]
    refine ⟨iff_of_true rfl hkind, rfl, ?_⟩
    intro shape hshape
    cases hshape
  · rw [htype]
    exact sound_of_related hkind rfl (.inl rfl) description
  · rw [htype]
    exact sound_of_related hkind rfl (.inr hnode) description

/-- A relation leads to the related table, page by page or not. -/
theorem RelationField.sound_shapeField (registry : TypeRegistry) (page : PageNames)
    (relation : RelationField) : relation.shapeField.Sound registry page := by
  unfold shapeField
  -- The wire type names the related table as an object, required for a page and not for one row.
  split
  · exact ShapeField.sound_of_related rfl rfl (.inl rfl) none
  · exact ShapeField.sound_of_related rfl rfl (.inl rfl) none

namespace Shape

variable {name : String} {field : ShapeField}

/-- All fields of the shape of a table are sound. -/
theorem sound_ofTable {table : Table}
    (h : (ofTable registry page table).field? name = some field) : field.Sound registry page := by
  rcases cases_of_field?_ofTable h with ⟨column, -, -, rfl⟩ | ⟨relation, -, -, rfl⟩
  · exact ShapeField.sound_ofWire registry page _ _
  · exact relation.sound_shapeField registry page

/-- All fields of the shape of an object type are sound. -/
theorem sound_ofObject {type : String} {fields : List FieldDefinition}
    (h : (ofObject registry page type fields).field? name = some field) :
    field.Sound registry page := by
  obtain ⟨definition, -, -, rfl⟩ := exists_of_field?_ofObject h
  exact ShapeField.sound_ofWire registry page _ _

/-- The key of an object type is its leaf `id`, or it has none. -/
theorem leaf_of_mem_keyNames_ofObject {type : String} {fields : List FieldDefinition}
    (h : name ∈ (ofObject registry page type fields).keyNames) :
    ∃ field, (ofObject registry page type fields).field? name = some field ∧
      field.type = .leaf := by
  change name ∈ ite _ _ _ at h
  split at h
  · next hid =>
    obtain rfl := List.mem_singleton.1 h
    obtain ⟨field, hfield, hleaf⟩ := (Option.any_eq_true _ _).1 hid
    exact ⟨field, hfield, ShapeType.eq_leaf_of_isLeaf hleaf⟩
  · cases h

end Shape

/-! ## The invariant -/

/-- What the other parts of the program rely on. A shape stands under its own name. There is a
shape for every table and for every object type, and for nothing else; of several tables of a name
the last one counts, and an object type only counts where no table has its name. Every field of
every shape holds what its wire type says, and every key of the shape of an object type is a leaf
of it. -/
structure Catalog.Invariant (schema : Schema) (page : PageNames) (catalog : Catalog) : Prop where
  name_eq : ∀ name shape, catalog.find? name = some shape → shape.name = name
  contains_iff : ∀ name, catalog.contains name = true ↔
    (∃ table ∈ schema.tables, table.name = name) ∨ schema.registry.ListsObject name
  table_wins : ∀ table ∈ schema.tables, ∃ last, schema.lastTable? table.name = some last ∧
    catalog.find? table.name = some (.ofTable schema.registry page last)
  object_shape : ∀ name shape, catalog.find? name = some shape →
    (∀ table ∈ schema.tables, table.name ≠ name) →
      ∃ type ∈ schema.registry.toList, type.name = name ∧ ∃ fields, type.body = .object fields ∧
        shape = .ofObject schema.registry page name fields
  field_sound : ∀ name shape, catalog.find? name = some shape →
    ∀ key field, shape.field? key = some field → field.Sound schema.registry page
  key_leaf : ∀ name shape, catalog.find? name = some shape →
    (∀ table ∈ schema.tables, table.name ≠ name) →
      ∀ key ∈ shape.keyNames, ∃ field, shape.field? key = some field ∧ field.type = .leaf

namespace Catalog

/-- Where a table has the name, its shape is found, whatever the registry holds. -/
theorem find?_ofSchema_of_lastTable? {schema : Schema} {name : String} {table : Table}
    (page : PageNames) (last : schema.lastTable? name = some table) :
    (ofSchema schema page).find? name = some (.ofTable schema.registry page table) := by
  rw [find?_ofSchema, last, Option.map_some, Option.some_or]

/-- There is a shape exactly for the tables and for the object types that the registry lists. -/
theorem contains_ofSchema_iff (schema : Schema) (page : PageNames) (name : String) :
    (ofSchema schema page).contains name = true ↔
      (∃ table ∈ schema.tables, table.name = name) ∨ schema.registry.ListsObject name := by
  constructor
  · intro h
    obtain ⟨shape, hshape⟩ := Option.isSome_iff_exists.1 h
    rcases cases_of_find? hshape with
      ⟨table, hlast, -⟩ | ⟨-, type, hmem, hname, fields, hbody, -⟩
    · exact .inl ((schema.exists_lastTable?_iff name).1 ⟨table, hlast⟩)
    · exact .inr ⟨type, hmem, hname, fields, hbody⟩
  · intro h
    show ((ofSchema schema page).find? name).isSome = true
    rw [find?_ofSchema, Option.isSome_or, Bool.or_eq_true]
    rcases h with htable | ⟨type, hmem, hname, fields, hbody⟩
    · obtain ⟨last, hlast⟩ := (schema.exists_lastTable?_iff name).2 htable
      exact .inl (by rw [hlast]; rfl)
    · -- Another type of the name may come first in the list, but then that one adds a shape.
      refine .inr (List.findSome?_isSome_iff.2 ⟨type, hmem, ?_⟩)
      rw [objectShape?_eq_some_iff.2 ⟨hname, fields, hbody, rfl⟩]
      rfl

/-- Without a table of the name, what is found is the shape of an object type. -/
theorem exists_object_of_find? {schema : Schema} {name : String} {shape : Shape}
    (h : (ofSchema schema page).find? name = some shape)
    (free : ∀ table ∈ schema.tables, table.name ≠ name) :
    ∃ type ∈ schema.registry.toList, type.name = name ∧ ∃ fields, type.body = .object fields ∧
      shape = .ofObject schema.registry page name fields := by
  rcases cases_of_find? h with ⟨table, hlast, -⟩ | ⟨-, hobject⟩
  · obtain ⟨other, hmem, hname⟩ := (schema.exists_lastTable?_iff name).1 ⟨table, hlast⟩
    exact absurd hname (free other hmem)
  · exact hobject

/-- The catalog of every schema has the invariant, under any names for the fields of a page. -/
theorem invariant_ofSchema (schema : Schema) (page : PageNames) :
    (ofSchema schema page).Invariant schema page where
  name_eq := by
    intro name shape hshape
    rcases cases_of_find? hshape with ⟨table, hlast, rfl⟩ | ⟨-, type, -, -, fields, -, rfl⟩
    · exact Schema.name_eq_of_lastTable? hlast
    · rfl
  contains_iff := contains_ofSchema_iff schema page
  table_wins := by
    intro table hmem
    obtain ⟨last, hlast⟩ := (schema.exists_lastTable?_iff table.name).2 ⟨table, hmem, rfl⟩
    exact ⟨last, hlast, find?_ofSchema_of_lastTable? page hlast⟩
  object_shape := fun name shape => exists_object_of_find?
  field_sound := by
    intro name shape hshape key field hfield
    rcases cases_of_find? hshape with ⟨table, -, rfl⟩ | ⟨-, type, -, -, fields, -, rfl⟩
    · exact Shape.sound_ofTable hfield
    · exact Shape.sound_ofObject hfield
  key_leaf := by
    intro name shape hshape free key hkey
    obtain ⟨type, -, -, fields, -, rfl⟩ := exists_object_of_find? hshape free
    exact Shape.leaf_of_mem_keyNames_ofObject hkey

end Catalog

end GraphClient
