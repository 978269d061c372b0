import GraphClient.Package.ClientFile
import GraphClient.Package.TypesFile
import GraphClient.Proofs.Shape.Invariant
import Mathlib.Data.List.Nodup

/-!
# Three views of a table

Whether a field of a table has fields of its own is said in three places: in the shape of the table,
in the type of its selections, and in the relation map of the client. The shape goes by the type of
a field. The other two go by where the field stands in the table, so that a column which holds an
object is a plain value to them.

* `Table.ViewsAgree` : the three places say the same about a field.
* `Schema.shapeType?_eq`, `Schema.mappedRelation?_eq`, `TypesFile.selectType?_of_column`,
  `TypesFile.selectType?_of_relation` : what each of them says.
* `Table.viewsAgree_iff` : they agree on all relations, and on the columns that hold no object.
-/

namespace GraphClient

open TypeScript (TypeExpr Property)

/-! ## What is said where -/

namespace Schema

/-- What the shape of a table says about a field. -/
def shapeType? (schema : Schema) (page : PageNames) (table field : String) : Option ShapeType :=
  ((Catalog.ofSchema schema page).find? table).bind fun shape =>
    (shape.field? field).map (·.type)

/-- What the relation map says about a field of a table. The map is an object of objects, where the
last entry of a name counts. -/
def mappedRelation? (schema : Schema) (table field : String) : Option RelationEntry :=
  ((Keyed.ofList schema.relationMap).find? table).bind fun entries =>
    (Keyed.ofList (entries.map fun entry => (entry.field, entry))).find? field

end Schema

/-- What the type of the selections of a table says about a field. -/
def TypesFile.selectType? (schema : Schema) (page : PageNames) (table : Table) (field : String) :
    Option TypeExpr :=
  ((selectInterface schema page table).properties.find? (·.key == field)).map (·.value)

namespace Table

/-- The names of the columns and of the relations. -/
def fieldNames (table : Table) : List String :=
  table.fields.map (·.name) ++ table.relations.fields.map (·.name)

/-- The three places agree on a field: it is a leaf of the shape exactly if a selection may only say
yes or no to it, and exactly if the relation map leaves it out. If it is no leaf, its rows come in
pages for the shape exactly if they do for the relation map. -/
structure ViewsAgree (schema : Schema) (page : PageNames) (table : Table) (field : String) :
    Prop where
  leaf_iff : schema.shapeType? page table.name field = some .leaf ↔
    TypesFile.selectType? schema page table field = some (.named "boolean")
  boolean_iff : TypesFile.selectType? schema page table field = some (.named "boolean") ↔
    schema.mappedRelation? table.name field = none
  connection_iff : schema.shapeType? page table.name field ≠ some .leaf →
    ((∃ node, schema.shapeType? page table.name field = some (.connection node)) ↔
      ∃ entry, schema.mappedRelation? table.name field = some entry ∧ entry.isConnection = true)

end Table

/-! ## What each of them says -/

namespace Schema

variable {schema : Schema} {name : String} {table : Table}

/-- In a shape a relation wins over a column, and the last one of a name over the others. -/
theorem shapeType?_eq (page : PageNames) (last : schema.lastTable? name = some table)
    (field : String) :
    schema.shapeType? page name field =
      ((table.lastRelation? field).map fun relation => relation.shapeField.type).or
        ((table.lastColumn? field).map fun column => .ofWire schema.registry page column.type) := by
  rw [shapeType?, Catalog.find?_ofSchema_of_lastTable? page last, Option.bind_some,
    Shape.type_field?_ofTable]

/-- The relation map has the last relation of a name, and no column. -/
theorem mappedRelation?_eq (last : schema.lastTable? name = some table) (field : String) :
    schema.mappedRelation? name field = (table.lastRelation? field).map fun relation =>
      ⟨relation.name, relation.relatedTable, relation.kind.isCollection⟩ := by
  have hentries : (Keyed.ofList schema.relationMap).find? name =
      some (table.relations.fields.map fun relation =>
        ⟨relation.name, relation.relatedTable, relation.kind.isCollection⟩) := by
    rw [lastTable?] at last
    rw [relationMap, Keyed.find?_ofList_map, last, Option.map_some]
  rw [mappedRelation?, hentries, Option.bind_some, List.map_map]
  exact Keyed.find?_ofList_map table.relations.fields (·.name) _ field

end Schema

namespace TypesFile

variable {schema : Schema} {page : PageNames} {table : Table}

/-- The selections of a table have a property for each column and one for each relation. -/
theorem properties_selectInterface : (selectInterface schema page table).properties =
    table.fields.map (fun column => .possible column.name (.named "boolean")) ++
      table.relations.fields.map fun relation =>
        .possible relation.name (relationSelection schema page relation) := rfl

/-- A selection says yes or no to a column. -/
theorem selectType?_of_column {column : TableField} (h : column ∈ table.fields) :
    selectType? schema page table column.name = some (.named "boolean") := by
  rw [selectType?, properties_selectInterface, List.find?_append]
  have hfound : ∃ property, (table.fields.map fun column : TableField =>
      Property.possible column.name (.named "boolean")).find? (·.key == column.name) =
        some property := by
    rw [← Option.isSome_iff_exists, List.find?_isSome]
    exact ⟨_, List.mem_map.2 ⟨column, h, rfl⟩, beq_self_eq_true column.name⟩
  obtain ⟨property, hproperty⟩ := hfound
  obtain ⟨found, -, rfl⟩ := List.mem_map.1 (List.mem_of_find?_eq_some hproperty)
  rw [hproperty]
  rfl

/-- To a relation a selection says more than yes or no, or nothing at all. -/
theorem relationSelection_ne_boolean (relation : RelationField) :
    relationSelection schema page relation ≠ .named "boolean" := by
  unfold relationSelection
  split
  · simp
  · simp

/-- A selection says more than yes or no to a relation, as long as no column has its name. -/
theorem selectType?_of_relation (distinct : table.fieldNames.Nodup) {relation : RelationField}
    (h : relation ∈ table.relations.fields) :
    selectType? schema page table relation.name ≠ some (.named "boolean") := by
  have hcolumn : ∀ column ∈ table.fields, column.name ≠ relation.name := by
    intro column hcolumn heq
    exact (List.nodup_append.1 distinct).2.2 _ (List.mem_map.2 ⟨column, hcolumn, rfl⟩) _
      (List.mem_map.2 ⟨relation, h, rfl⟩) heq
  intro hboolean
  obtain ⟨property, hproperty, hvalue⟩ := Option.map_eq_some_iff.1 hboolean
  have hkey : property.key = relation.name := by
    simpa using List.find?_some hproperty
  have hmem := List.mem_of_find?_eq_some hproperty
  rw [properties_selectInterface] at hmem
  rcases List.mem_append.1 hmem with hmem | hmem
  · obtain ⟨column, hcolumnMem, rfl⟩ := List.mem_map.1 hmem
    exact hcolumn column hcolumnMem hkey
  · obtain ⟨found, -, rfl⟩ := List.mem_map.1 hmem
    exact relationSelection_ne_boolean found hvalue

end TypesFile

/-! ## Where they agree -/

namespace RelationField

/-- A relation leads to one object, or to pages of them. -/
theorem shapeField_type (relation : RelationField) :
    relation.shapeField.type =
      if relation.kind.isCollection then .connection relation.relatedTable
      else .object relation.relatedTable false := by
  rw [shapeField]
  split <;> rfl

/-- No relation is a leaf. -/
theorem shapeField_type_ne_leaf (relation : RelationField) : relation.shapeField.type ≠ .leaf := by
  rw [shapeField_type]
  split <;> simp

/-- The rows of a relation come in pages exactly if there may be many. -/
theorem shapeField_type_eq_connection_iff (relation : RelationField) :
    (∃ node, relation.shapeField.type = .connection node) ↔
      relation.kind.isCollection = true := by
  rw [shapeField_type]
  cases relation.kind.isCollection <;> simp

end RelationField

/-- A column is a leaf exactly if it holds no object. -/
theorem ShapeType.ofWire_eq_leaf_iff {registry : TypeRegistry} {page : PageNames} {wire : TypeRef} :
    ofWire registry page wire = .leaf ↔ wire.baseKind ≠ .object := by
  rcases ofWire_cases registry page wire with ⟨hkind, htype⟩ | ⟨hkind, -, list, htype⟩ |
    ⟨hkind, -, related, -, htype⟩
  · simp [htype, hkind]
  · simp [htype, hkind]
  · simp [htype, hkind]

namespace Table

variable {schema : Schema} {page : PageNames} {table last : Table}

/-- Where names are distinct, a column is the last one of its name. -/
theorem lastColumn?_of_mem (distinct : table.fieldNames.Nodup) {column : TableField}
    (h : column ∈ table.fields) : table.lastColumn? column.name = some column := by
  have hnodup : (table.fields.map (·.name)).Nodup := (List.nodup_append.1 distinct).1
  obtain ⟨found, hfound⟩ : ∃ found, table.lastColumn? column.name = some found := by
    rw [lastColumn?, ← Option.isSome_iff_exists, List.find?_isSome]
    exact ⟨column, List.mem_reverse.2 h, beq_self_eq_true column.name⟩
  have hmem : found ∈ table.fields := List.mem_reverse.1 (List.mem_of_find?_eq_some hfound)
  have hname : found.name = column.name := by simpa using List.find?_some hfound
  rw [hfound, List.inj_on_of_nodup_map hnodup hmem h hname]

/-- There is no last relation of a name exactly if there is none at all. -/
theorem lastRelation?_eq_none_iff {name : String} :
    table.lastRelation? name = none ↔ name ∉ table.relations.fields.map (·.name) := by
  rw [lastRelation?, List.find?_eq_none]
  simp

/-- Where names are distinct, no relation has the name of a column. -/
theorem lastRelation?_of_column (distinct : table.fieldNames.Nodup) {column : TableField}
    (h : column ∈ table.fields) : table.lastRelation? column.name = none := by
  rw [lastRelation?_eq_none_iff]
  intro hrelation
  exact (List.nodup_append.1 distinct).2.2 _ (List.mem_map.2 ⟨column, h, rfl⟩) _ hrelation rfl

/-- The views of a column agree if the last table of the name has no relation in its place, and a
column that holds no object. -/
theorem viewsAgree_column_iff (hlast : schema.lastTable? table.name = some last)
    {column : TableField} (h : column ∈ table.fields) :
    table.ViewsAgree schema page column.name ↔ last.lastRelation? column.name = none ∧
      ∃ held, last.lastColumn? column.name = some held ∧ held.type.baseKind ≠ .object := by
  have hboolean : TypesFile.selectType? schema page table column.name = some (.named "boolean") :=
    TypesFile.selectType?_of_column h
  have hshape := schema.shapeType?_eq page hlast column.name
  have hentry := schema.mappedRelation?_eq hlast column.name
  constructor
  · intro agree
    have hnone : last.lastRelation? column.name = none := by
      have habsent := agree.boolean_iff.1 hboolean
      rw [hentry] at habsent
      exact Option.map_eq_none_iff.1 habsent
    have hleaf := agree.leaf_iff.2 hboolean
    rw [hshape, hnone, Option.map_none, Option.none_or] at hleaf
    obtain ⟨held, hheld, htype⟩ := Option.map_eq_some_iff.1 hleaf
    exact ⟨hnone, held, hheld, ShapeType.ofWire_eq_leaf_iff.1 htype⟩
  · rintro ⟨hnone, held, hheld, hkind⟩
    have hleaf : schema.shapeType? page table.name column.name = some .leaf := by
      rw [hshape, hnone, hheld, Option.map_none, Option.none_or, Option.map_some,
        ShapeType.ofWire_eq_leaf_iff.2 hkind]
    have habsent : schema.mappedRelation? table.name column.name = none := by
      rw [hentry, hnone, Option.map_none]
    exact ⟨iff_of_true hleaf hboolean, iff_of_true hboolean habsent,
      fun hnoLeaf => absurd hleaf hnoLeaf⟩

/-- The views of a relation agree if the last table of the name has a relation of that name. -/
theorem viewsAgree_relation_iff (hlast : schema.lastTable? table.name = some last)
    (distinct : table.fieldNames.Nodup) {relation : RelationField}
    (h : relation ∈ table.relations.fields) :
    table.ViewsAgree schema page relation.name ↔
      relation.name ∈ last.relations.fields.map (·.name) := by
  have hboolean : TypesFile.selectType? schema page table relation.name ≠ some (.named "boolean") :=
    TypesFile.selectType?_of_relation distinct h
  have hshape := schema.shapeType?_eq page hlast relation.name
  have hentry := schema.mappedRelation?_eq hlast relation.name
  constructor
  · intro agree
    by_contra habsent
    rw [← lastRelation?_eq_none_iff] at habsent
    refine hboolean (agree.boolean_iff.2 ?_)
    rw [hentry, habsent, Option.map_none]
  · intro hpresent
    obtain ⟨held, hheld⟩ : ∃ held, last.lastRelation? relation.name = some held := by
      rw [← Option.ne_none_iff_exists', Ne, lastRelation?_eq_none_iff, not_not]
      exact hpresent
    rw [hheld, Option.map_some] at hentry
    rw [hheld, Option.map_some, Option.some_or] at hshape
    have hnoLeaf : schema.shapeType? page table.name relation.name ≠ some .leaf := by
      rw [hshape]
      exact fun heq => held.shapeField_type_ne_leaf (Option.some.inj heq)
    refine ⟨iff_of_false hnoLeaf hboolean, iff_of_false hboolean ?_, fun _ => ?_⟩
    · rw [hentry]
      exact Option.some_ne_none _
    · rw [hshape, hentry]
      simpa using held.shapeField_type_eq_connection_iff

/-- The shape, the type of the selections and the relation map agree on a column if it holds no
object, and on every relation. Where another table takes the name, the last table of the name is
what the shape and the relation map are about: a column has to be one that holds no object there
too, and a relation has to be one there too. -/
theorem viewsAgree_iff (schema : Schema) (page : PageNames) {table : Table}
    (mem : table ∈ schema.tables) (distinct : table.fieldNames.Nodup) :
    ∃ last, schema.lastTable? table.name = some last ∧
      (∀ column ∈ table.fields, table.ViewsAgree schema page column.name ↔
        last.lastRelation? column.name = none ∧
          ∃ held, last.lastColumn? column.name = some held ∧ held.type.baseKind ≠ .object) ∧
      (∀ relation ∈ table.relations.fields, table.ViewsAgree schema page relation.name ↔
        relation.name ∈ last.relations.fields.map (·.name)) ∧
      ((∀ other ∈ schema.tables, other.name = table.name → other = table) →
        (∀ column ∈ table.fields,
          table.ViewsAgree schema page column.name ↔ column.type.baseKind ≠ .object) ∧
        ∀ relation ∈ table.relations.fields, table.ViewsAgree schema page relation.name) := by
  obtain ⟨last, hlast⟩ : ∃ last, schema.lastTable? table.name = some last := by
    rw [Schema.lastTable?, ← Option.isSome_iff_exists, List.find?_isSome]
    exact ⟨table, List.mem_reverse.2 mem, beq_self_eq_true table.name⟩
  refine ⟨last, hlast, fun column h => viewsAgree_column_iff hlast h,
    fun relation h => viewsAgree_relation_iff hlast distinct h, fun alone => ?_⟩
  have hmem : last ∈ schema.tables := List.mem_reverse.1 (List.mem_of_find?_eq_some hlast)
  have hname : last.name = table.name := by simpa using List.find?_some hlast
  obtain rfl : last = table := alone last hmem hname
  constructor
  · intro column h
    rw [viewsAgree_column_iff hlast h, lastRelation?_of_column distinct h,
      lastColumn?_of_mem distinct h]
    simp
  · intro relation h
    exact (viewsAgree_relation_iff hlast distinct h).2 (List.mem_map.2 ⟨relation, h, rfl⟩)

end Table

namespace Sample

/-- A house has an owner and rooms. -/
def houseTable : Table where
  name := "House"
  fields := [⟨"id", .nonNull (.scalar "UUID"), none⟩, ⟨"street", .scalar "String", none⟩]
  relations :=
    { belongsTo := [⟨some "owner", "Person"⟩], hasMany := [⟨some "rooms", "Room"⟩] }

def houseSchema : Schema where
  tables := [houseTable, { name := "Room" }]

/-- All views of a house agree, also on its owner, of whom no table tells. -/
theorem house_viewsAgree : houseTable ∈ houseSchema.tables ∧ houseTable.fieldNames.Nodup ∧
    ∀ field ∈ houseTable.fieldNames, houseTable.ViewsAgree houseSchema {} field := by
  have mem : houseTable ∈ houseSchema.tables := List.mem_cons_self
  have distinct : houseTable.fieldNames.Nodup := by decide
  have alone : ∀ other ∈ houseSchema.tables, other.name = houseTable.name →
      other = houseTable := by
    intro other hother hname
    rcases List.mem_cons.1 hother with rfl | hother
    · rfl
    · obtain rfl := List.mem_singleton.1 hother
      exact absurd hname (by decide)
  obtain ⟨last, -, -, -, agree⟩ := Table.viewsAgree_iff houseSchema {} mem distinct
  obtain ⟨columns, relations⟩ := agree alone
  refine ⟨mem, distinct, fun field hfield => ?_⟩
  rcases List.mem_append.1 hfield with hfield | hfield
  · obtain ⟨column, hcolumn, rfl⟩ := List.mem_map.1 hfield
    have hplain : ∀ column ∈ houseTable.fields, column.type.baseKind ≠ .object := by decide
    exact (columns column hcolumn).2 (hplain column hcolumn)
  · obtain ⟨relation, hrelation, rfl⟩ := List.mem_map.1 hfield
    exact relations relation hrelation

/-- A house whose address is a column that holds an object. -/
def addressedTable : Table where
  name := "House"
  fields := [⟨"id", .nonNull (.scalar "UUID"), none⟩, ⟨"address", .object "Address", none⟩]

def addressedSchema : Schema where
  tables := [addressedTable,
    { name := "Address"
      fields := [⟨"id", .nonNull (.scalar "UUID"), none⟩, ⟨"street", .scalar "String", none⟩] }]

/-- The address is an object for the shape of a house, a plain value for the type of its selections,
and unknown to the relation map. -/
theorem address_not_viewsAgree : addressedTable ∈ addressedSchema.tables ∧
    addressedTable.fieldNames.Nodup ∧ "address" ∈ addressedTable.fieldNames ∧
    addressedSchema.shapeType? {} "House" "address" = some (.object "Address" false) ∧
    TypesFile.selectType? addressedSchema {} addressedTable "address" = some (.named "boolean") ∧
    addressedSchema.mappedRelation? "House" "address" = none ∧
    ¬ addressedTable.ViewsAgree addressedSchema {} "address" := by
  have hshape : addressedSchema.shapeType? {} "House" "address" =
      some (.object "Address" false) := rfl
  have hselect : TypesFile.selectType? addressedSchema {} addressedTable "address" =
      some (.named "boolean") := rfl
  refine ⟨List.mem_cons_self, by decide, by decide, hshape, hselect, rfl, fun agree => ?_⟩
  have hleaf : addressedSchema.shapeType? {} "House" "address" = some .leaf :=
    agree.leaf_iff.2 hselect
  rw [hshape] at hleaf
  cases hleaf

end Sample

end GraphClient
