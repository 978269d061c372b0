import GraphClient.Schema.TypeRef
import GraphClient.Text.Lowercase

/-!
# Tables

A table of the schema with its columns, its relations to other tables, its declared keys, and the
names that are given instead of derived. A single row is addressed by the primary key: the first
declared key group, else the column `id`, else a key `id` that is made up.
-/

namespace GraphClient

/-- A column of a table. -/
structure TableField where
  name : String
  type : TypeRef
  description : Option String := none
deriving Repr, DecidableEq, Inhabited

/-- How a table is related to another one. -/
inductive RelationKind where
  | belongsTo
  | hasOne
  | hasMany
  | manyToMany
deriving Repr, DecidableEq, Inhabited

/-- Whether a relation leads to many rows, which are exposed page by page. -/
def RelationKind.isCollection : RelationKind → Bool
  | .hasMany | .manyToMany => true
  | _ => false

/-- A relation to another table. One without a field name cannot be reached by a client. -/
structure Relation where
  fieldName : Option String
  relatedTable : String
deriving Repr, DecidableEq, Inhabited

/-- The relations of a table, each kind in its order. -/
structure Relations where
  belongsTo : List Relation := []
  hasOne : List Relation := []
  hasMany : List Relation := []
  manyToMany : List Relation := []
deriving Repr, DecidableEq, Inhabited

/-- A relation that is exposed as a field. -/
structure RelationField where
  kind : RelationKind
  name : String
  relatedTable : String
deriving Repr, DecidableEq, Inhabited

/-- The exposed ones of some relations of one kind. -/
def RelationField.ofRelations (kind : RelationKind) (relations : List Relation) :
    List RelationField :=
  relations.filterMap fun relation =>
    relation.fieldName.map fun name => ⟨kind, name, relation.relatedTable⟩

namespace Relations

/-- The relations that are exposed as fields, kind by kind. -/
def fields (relations : Relations) : List RelationField :=
  RelationField.ofRelations .belongsTo relations.belongsTo ++
    RelationField.ofRelations .hasOne relations.hasOne ++
    RelationField.ofRelations .hasMany relations.hasMany ++
    RelationField.ofRelations .manyToMany relations.manyToMany

/-- All relations, exposed or not. -/
def all (relations : Relations) : List Relation :=
  relations.belongsTo ++ relations.hasOne ++ relations.hasMany ++ relations.manyToMany

/-- Adds a relation to those of its kind. -/
def add (relations : Relations) (kind : RelationKind) (relation : Relation) : Relations :=
  match kind with
  | .belongsTo => { relations with belongsTo := relations.belongsTo ++ [relation] }
  | .hasOne => { relations with hasOne := relations.hasOne ++ [relation] }
  | .hasMany => { relations with hasMany := relations.hasMany ++ [relation] }
  | .manyToMany => { relations with manyToMany := relations.manyToMany ++ [relation] }

end Relations

/-- Given names of the root fields of a table. -/
structure RootFieldNames where
  all : Option String := none
  one : Option String := none
  create : Option String := none
  update : Option String := none
  delete : Option String := none
deriving Repr, DecidableEq, Inhabited

/-- Given names of the types derived from a table. -/
structure Inflection where
  tableType : Option String := none
  allRows : Option String := none
  tableFieldName : Option String := none
  filterType : Option String := none
  orderByType : Option String := none
  inputType : Option String := none
  createInputType : Option String := none
  patchType : Option String := none
  updateInputType : Option String := none
  deleteInputType : Option String := none
deriving Repr, DecidableEq, Inhabited

/-- A declared key: the names of its columns. -/
structure KeyConstraint where
  name : Option String := none
  fields : List String := []
deriving Repr, DecidableEq, Inhabited

/-- The declared constraints of a table. -/
structure Constraints where
  primaryKey : List KeyConstraint := []
deriving Repr, DecidableEq, Inhabited

/-- A table of the schema. -/
structure Table where
  name : String
  fields : List TableField := []
  relations : Relations := {}
  rootFields : Option RootFieldNames := none
  inflection : Option Inflection := none
  constraints : Option Constraints := none
  description : Option String := none
deriving Repr, DecidableEq, Inhabited

/-- A column of a primary key; its type is required. -/
structure KeyField where
  name : String
  type : TypeRef
deriving Repr, DecidableEq, Inhabited

/-- The key by which a row is addressed; `synthetic` tells that it was made up. -/
structure PrimaryKey where
  first : KeyField
  rest : List KeyField
  synthetic : Bool
deriving Repr, DecidableEq, Inhabited

namespace PrimaryKey

/-- The columns of the key. -/
def fields (key : PrimaryKey) : List KeyField := key.first :: key.rest

/-- The names of the columns of the key. -/
def names (key : PrimaryKey) : List String := key.fields.map (·.name)

/-- Whether the key has one column. -/
def isSingle (key : PrimaryKey) : Bool := key.rest.isEmpty

/-- Whether a column belongs to the key. -/
def contains (key : PrimaryKey) (name : String) : Bool := key.names.contains name

end PrimaryKey

namespace Table

/-- The first column with a name. -/
def field? (table : Table) (name : String) : Option TableField :=
  table.fields.find? (·.name == name)

/-- The lower-case form of the table's name, by which cache keys know the table. -/
def entityKey (table : Table) : String := Text.lowercase table.name

/-- A column of a declared key; a name without a column counts as a required `UUID`. -/
def keyField (table : Table) (name : String) : KeyField :=
  ⟨name, (match table.field? name with
    | some field => field.type
    | none => .scalar "UUID").required⟩

/-- The column names of the first declared key, if there are any. -/
def declaredKey (table : Table) : List String :=
  match table.constraints with
  | some ⟨constraint :: _⟩ => constraint.fields
  | _ => []

/-- The key by which a row is addressed. -/
def primaryKey (table : Table) : PrimaryKey :=
  match table.declaredKey with
  | name :: names => ⟨table.keyField name, names.map table.keyField, false⟩
  | [] =>
    match table.field? "id" with
    | some field => ⟨⟨field.name, field.type.required⟩, [], false⟩
    | none => ⟨⟨"id", (TypeRef.scalar "UUID").required⟩, [], true⟩

/-- Adds a column. -/
def addField (table : Table) (name : String) (type : TypeRef) : Table :=
  { table with fields := table.fields ++ [⟨name, type, none⟩] }

/-- Adds an exposed relation. -/
def addRelation (table : Table) (kind : RelationKind) (fieldName relatedTable : String) : Table :=
  { table with relations := table.relations.add kind ⟨some fieldName, relatedTable⟩ }

/-- Declares the primary key, in place of the declared ones. -/
def declareKey (table : Table) (fields : List String) : Table :=
  { table with constraints := some ⟨[⟨none, fields⟩]⟩ }

theorem keyField_isRequired (table : Table) (name : String) :
    (table.keyField name).type.isRequired = true := TypeRef.isRequired_required _

/-- The columns of a primary key are required. -/
theorem isRequired_of_mem_primaryKey {table : Table} {field : KeyField}
    (h : field ∈ table.primaryKey.fields) : field.type.isRequired = true := by
  unfold primaryKey at h
  split at h
  · simp only [PrimaryKey.fields, List.mem_cons, List.mem_map] at h
    rcases h with rfl | ⟨name, -, rfl⟩ <;> exact keyField_isRequired _ _
  · split at h <;>
      (simp only [PrimaryKey.fields, List.mem_cons, List.not_mem_nil, or_false] at h; subst h; simp)

end Table

end GraphClient
