import GraphClient.Naming.Entity
import GraphClient.Package.Definitions
import GraphClient.Package.Blueprint
import GraphClient.Projection.Typed

/-!
# The file of types

The types that the tables need, in this order: the named types that columns mention, the filters
that columns are matched with, and for each table its row type, its relations, its selections and
its input types. A named type of the schema takes the place of an input type of its name.
-/

namespace GraphClient

open TypeScript (TypeExpr Property TypeParameter Declaration Item ImportSet SourceFile)

/-- A filter that some column uses. -/
inductive UsedFilter where
  /-- A filter of scalars, with the type of its operands. -/
  | scalar (typeName : String) (family : FilterFamily)
  /-- The filter of enums, whose operands are typed by a parameter. -/
  | enumeration
deriving Repr, DecidableEq, Inhabited

namespace TypesFile

/-! ## Filters -/

/-- The filter of enums. -/
def enumFilter : String := "EnumFilter"

/-- The filter that a column is matched with, if it can be filtered: its name and what it is. -/
def columnFilter? (scalars : ScalarSettings) (column : TableField) : Option (String × UsedFilter) :=
  if column.type.isList then none
  else
    match column.type.baseKind with
    | .scalar =>
      (scalars.filter? column.type.baseName).map fun filter =>
        (filter.name,
          .scalar ((scalars.typeName? column.type.baseName).getD "unknown") filter.family)
    | .enumeration => some (enumFilter, .enumeration)
    | _ => none

/-- Keeps the first filter of a name. -/
def addFilter (filters : Keyed UsedFilter) (p : String × UsedFilter) : Keyed UsedFilter :=
  if filters.contains p.1 then filters else filters.insert p.1 p.2

/-- The filters that the columns of some tables use, in the order of their first use. -/
def usedFilters (scalars : ScalarSettings) (tables : List Table) : Keyed UsedFilter :=
  ((tables.flatMap (·.fields)).filterMap (columnFilter? scalars)).foldl addFilter Keyed.empty

/-- The type of an operand, where `value` is the type of the values that are compared. -/
def operandType (value : TypeExpr) : Operand → TypeExpr
  | .flag => .named "boolean"
  | .value => value
  | .list => .array value
  | .text => .named "string"

/-- The operators of a family as properties. -/
def operatorProperties (value : TypeExpr) (family : FilterFamily) : List Property :=
  family.operators.map fun operator =>
    (Property.possible operator.name (operandType value operator.operand)).withDocs
      (some operator.description)

/-- The interface of a filter. -/
def filterInterface (name : String) : UsedFilter → Declaration
  | .scalar typeName family => .interface name (operatorProperties (.named typeName) family)
  | .enumeration =>
    (Declaration.interface name (operatorProperties (.named "T") .equality)).withParameters
      [{ name := "T" }]

/-! ## Rows and selections -/

/-- The type of the rows of a table. -/
def rowInterface (scalars : ScalarSettings) (table : Table) : Declaration :=
  .interface table.entityNames.typeName
    (table.fields.map fun column =>
      (Property.plain column.name (scalars.nullableExpr column.type)).withDocs column.description)
    table.description

/-- The type of a relation of a row. -/
def relationType (schema : Schema) (relation : RelationField) : TypeExpr :=
  let related : TypeExpr :=
    match schema.table? relation.relatedTable with
    | some table => .named table.entityNames.withRelationsType
    | none => .named "unknown"
  if relation.kind.isCollection then .generic connectionType [related] else related.nullable

/-- The type of the rows of a table with their relations. -/
def relationsInterface (schema : Schema) (table : Table) : Declaration :=
  .extending table.entityNames.withRelationsType (.named table.entityNames.typeName)
    (table.relations.fields.map fun relation =>
      .plain relation.name (relationType schema relation))

/-- What a selection may say about a relation. -/
def relationSelection (schema : Schema) (page : PageNames) (relation : RelationField) : TypeExpr :=
  match schema.table? relation.relatedTable with
  | none => .named "never"
  | some table =>
    let names := table.entityNames
    .object (.plain "select" (.named names.selectType) ::
      if relation.kind.isCollection then
        [.possible "first" (.named "number"), .possible page.filter (.named names.filterType),
          .possible page.order (.array (.named names.orderByType))]
      else []) false

/-- The type of the selections of a row. -/
def selectInterface (schema : Schema) (page : PageNames) (table : Table) : Declaration :=
  .interface table.entityNames.selectType
    (table.fields.map (fun column => .possible column.name (.named "boolean")) ++
      table.relations.fields.map fun relation =>
        .possible relation.name (relationSelection schema page relation))

/-! ## Input types -/

/-- The property of a column in a filter, if the column can be filtered. Columns are told apart
here once more, without a look at the filters that are used. -/
def filterProperty? (scalars : ScalarSettings) (column : TableField) : Option Property :=
  if column.type.isList then none
  else
    match column.type.baseKind with
    | .scalar =>
      (scalars.filter? column.type.baseName).map fun filter =>
        .possible column.name (.named filter.name)
    | .enumeration =>
      some (.possible column.name (.generic enumFilter [.named column.type.baseName]))
    | _ => none

/-- The filter of the rows of a table. -/
def rowFilter (scalars : ScalarSettings) (table : Table) : Declaration :=
  let names := table.entityNames
  let own : TypeExpr := .named names.filterType
  .interface names.filterType
    (table.fields.filterMap (filterProperty? scalars) ++
      [.possible "and" (.array own), .possible "or" (.array own), .possible "not" own])
    (some ("A filter on `" ++ names.typeName ++
      "` rows. All fields are combined with a logical and."))

/-- Whether rows can be ordered by a column. -/
def isOrderable (column : TableField) : Bool := !column.type.isList && column.type.baseKind.isLeaf

/-- The orderings of the rows of a table. -/
def orderings (table : Table) : List String :=
  ["NATURAL", "PRIMARY_KEY_ASC", "PRIMARY_KEY_DESC"] ++
    (table.fields.filter isOrderable).flatMap fun column =>
      [orderValue column.name ++ "_ASC", orderValue column.name ++ "_DESC"]

/-- The type of the orderings. -/
def orderType (table : Table) : Declaration :=
  .typeAlias table.entityNames.orderByType (.anyOf ((orderings table).map TypeExpr.literal))

/-- The data of a new row. The columns of the key may be left to the server. -/
def rowInput (scalars : ScalarSettings) (table : Table) : Declaration :=
  .interface table.entityNames.inputType (table.fields.map fun column =>
    .possibleIf (table.primaryKey.contains column.name || !column.type.isRequired) column.name
      (scalars.nullableExpr column.type))

/-- The property by which a client may mark a mutation. -/
def clientMutationId : Property := .possible "clientMutationId" (.named "string")

/-- The input of a creation. -/
def createInput (table : Table) : Declaration :=
  let names := table.entityNames
  .interface names.createInputType
    [clientMutationId, .plain names.entityField (.named names.inputType)]

/-- The changes to a row. -/
def patch (scalars : ScalarSettings) (table : Table) : Declaration :=
  .interface table.entityNames.patchType (table.fields.map fun column =>
    .possible column.name (scalars.nullableExpr column.type))

/-- The columns of the key as properties. -/
def keyProperties (scalars : ScalarSettings) (table : Table) : List Property :=
  table.primaryKey.fields.map fun field => .plain field.name (scalars.expr field.type)

/-- The input of a change. -/
def updateInput (scalars : ScalarSettings) (table : Table) : Declaration :=
  let names := table.entityNames
  .interface names.updateInputType
    ([clientMutationId] ++ keyProperties scalars table ++
      [.plain "patch" (.named names.patchType)])

/-- The input of a deletion. -/
def deleteInput (scalars : ScalarSettings) (table : Table) : Declaration :=
  .interface table.entityNames.deleteInputType
    ([clientMutationId] ++ keyProperties scalars table)

/-- The derived input types of a table, in the order of their names. -/
def derivedInputs (scalars : ScalarSettings) (table : Table) : List Declaration :=
  [rowFilter scalars table, orderType table, rowInput scalars table, createInput table,
    patch scalars table, updateInput scalars table, deleteInput scalars table]

/-- The declaration of an input type: that of the schema, or else the derived one. -/
def declaredInput (schema : Schema) (scalars : ScalarSettings) (derived : Declaration) :
    Declaration :=
  ((schema.registry.find? derived.name).bind (·.declaration? scalars)).getD derived

/-- The input types of a table. -/
def inputTypes (schema : Schema) (scalars : ScalarSettings) (table : Table) : List Declaration :=
  (derivedInputs scalars table).map (declaredInput schema scalars)

/-! ## The file -/

/-- The types that the columns and the input types of a table mention. -/
def tableMentions (schema : Schema) (table : Table) : List String :=
  table.fields.flatMap (·.type.mentions) ++
    table.primaryKey.fields.flatMap (·.type.mentions) ++
    table.entityNames.inputFamily.flatMap fun name =>
      (schema.registry.find? name).elim [] (·.mentions)

/-- The names that the file defines for tables. -/
def tableNames (table : Table) : List String :=
  let names := table.entityNames
  [table.name, names.typeName, names.withRelationsType, names.selectType] ++ names.inputFamily

/-- The names that the file defines for tables and filters. -/
def ownNames (schema : Schema) (scalars : ScalarSettings) : NameSet :=
  NameSet.ofList (schema.tables.flatMap tableNames ++ (usedFilters scalars schema.tables).keys)

/-- The named types that the file defines besides. -/
def definitions (blueprint : Blueprint) : Definitions :=
  let defined := ownNames blueprint.schema blueprint.scalars
  blueprint.definitions defined
    (References.ofNames defined
      (blueprint.schema.tables.flatMap (tableMentions blueprint.schema))).schemaTypes.names

/-- All names that the file defines. -/
def definedNames (blueprint : Blueprint) : NameSet :=
  (ownNames blueprint.schema blueprint.scalars).insertAll (definitions blueprint).names

/-- Whether some table has a relation to many rows. -/
def hasConnections (schema : Schema) : Bool :=
  schema.tables.any fun table => table.relations.fields.any (·.kind.isCollection)

/-- The items for the tables, and for the filters that their columns use. -/
def tableItems (schema : Schema) (scalars : ScalarSettings) (page : PageNames) : List Item :=
  let tables := schema.tables
  ((usedFilters scalars tables).entries.map (fun p => filterInterface p.1 p.2) ++
    tables.map (rowInterface scalars) ++
    tables.map (relationsInterface schema) ++
    tables.map (selectInterface schema page) ++
    tables.flatMap (inputTypes schema scalars)).map Item.exported

/-- The file of types. -/
def file (blueprint : Blueprint) : SourceFile where
  header := some (fileHeader "Entity, filter and input types")
  imports := (if hasConnections blueprint.schema then
      ImportSet.typesFrom "./select-types" [connectionType] else {}).statements
  items := (definitions blueprint).items.map Prod.snd ++
    tableItems blueprint.schema blueprint.scalars blueprint.page

end TypesFile

end GraphClient
