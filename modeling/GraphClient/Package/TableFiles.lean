import GraphClient.Package.Accessor

/-!
# Files of tables

Each table has a file for its lists, one for its single rows, and one for each of its mutations.
They are made from the templates of the requests.
-/

namespace GraphClient

open TypeScript (TypeExpr Property Declaration Definition Item)

/-- The templates of the operations on a table. -/
structure TableTemplates where
  all : Request
  first : Request
  one : Request
  create : Request
  update : Request
  delete : Request
deriving Inhabited

/-- The templates of the operations on a table. Each has to have a place for the selection of its
accessor. -/
def TableTemplates.of (blueprint : Blueprint) (table : Table) :
    Except RequestError TableTemplates := do
  let catalog := blueprint.catalog
  let settings := blueprint.settings
  let opened (position : RowPosition) (template : Except RequestError Request) :=
    template >>= Accessor.opened blueprint.page position
  return {
    all := ← opened .page (Request.findMany catalog settings table none none)
    first := ← opened .first (Request.findFirst catalog settings table none none)
    one := ← opened .single (Request.findOne catalog settings table none none)
    create := ← opened .payload (Request.create catalog settings table none none)
    update := ← opened .payload (Request.update catalog settings table none none none)
    delete := ← opened .payload (Request.delete catalog settings table none none) }

namespace TableFiles

/-- The type of the rows of a request. -/
def rowType (scalars : ScalarSettings) (request : Request) : TypeExpr :=
  request.projection.elim (.named "unknown") (·.expr scalars)

/-- What the type of the rows of a request needs. -/
def rowNeeds (request : Request) : Fragment := request.projection.elim {} Fragment.projection

/-- The type of the scopes of cache keys, if hooks take one. -/
def scopeType (blueprint : Blueprint) (factory : KeyFactory) : Option String :=
  if blueprint.sharesKeys && factory.keys.isScoped then some factory.scopeType else none

/-- The text of a key. -/
def keyText (blueprint : Blueprint) (factory : KeyFactory) (key : KeyExpr) : String :=
  key.text factory blueprint.settings.keys.style

/-- What the hook of a query imports from the shared keys. -/
def queryKeyImports (blueprint : Blueprint) (factory : KeyFactory) : Fragment :=
  .when (blueprint.settings.hooks && blueprint.sharesKeys)
    (.importing (.value "../query-keys" factory.queryKeys ++
      (scopeType blueprint factory).elim {} fun scope => .typesFrom "../query-keys" [scope]))

/-- The type of the first row of a list. -/
def nodeType (page : PageNames) (names : EntityNames) : Declaration :=
  .typeAlias (names.first.operation ++ "Node")
    (.index (.index (.index (.named names.first.result) (.literal names.allField))
      (.literal page.rows)) (.named "number"))

/-- The function that fetches the first row of a list. -/
def firstSender (page : PageNames) (names : EntityNames) : Fragment where
  items := [.exported (nodeType page names), .definition {
    words := "async function"
    name := names.first.function
    rest := Fragment.body ["(variables: " ++ names.first.variablesType ++
        " = \x7b\x7d): Promise<" ++ names.first.operation ++ "Node | null> \x7b",
      "  const data = await execute<" ++ names.first.result ++ ", " ++ names.first.variablesType ++
        ">(" ++ names.first.document ++ ", variables);",
      "  return data." ++ names.allField ++ "." ++ page.rows ++ "[0] ?? null;",
      "\x7d"] }]
  imports := .value "../client" "execute"

/-- The file of the lists of a table. -/
def list (blueprint : Blueprint) (factory : KeyFactory) (table : Table)
    (templates : TableTemplates) : Fragment :=
  let names := table.entityNames
  let scalars := blueprint.scalars
  let page := blueprint.page
  let optional := Fragment.allOptional templates.all.document
  let pageOf (request : Request) : TypeExpr := .generic connectionType [rowType scalars request]
  .importing (.typesFrom "../select-types" [connectionType]) ++
    .document scalars names.all templates.all.document ++
    rowNeeds templates.all ++
    .answer names.all names.allField (pageOf templates.all) ++
    .sender names.all optional ++
    Accessor.fragment page table.name names names.all .page templates.all ++
    queryKeyImports blueprint factory ++
    .queryHook blueprint.settings.hooks names.all optional (keyText blueprint factory .list)
      (scopeType blueprint factory) ++
    .document scalars names.first templates.first.document ++
    rowNeeds templates.first ++
    .answer names.first names.allField (pageOf templates.first) ++
    firstSender page names ++
    Accessor.fragment page table.name names names.first .first templates.first

/-- The file of the single rows of a table. -/
def one (blueprint : Blueprint) (factory : KeyFactory) (table : Table)
    (templates : TableTemplates) : Fragment :=
  let names := table.entityNames
  let scalars := blueprint.scalars
  let optional := Fragment.allOptional templates.one.document
  .document scalars names.one templates.one.document ++
    rowNeeds templates.one ++
    .answer names.one names.oneField (rowType scalars templates.one).nullable ++
    .sender names.one optional ++
    Accessor.fragment blueprint.page table.name names names.one .single templates.one ++
    queryKeyImports blueprint factory ++
    .queryHook blueprint.settings.hooks names.one optional
      (keyText blueprint factory (.detail (.ofTable table))) (scopeType blueprint factory)

/-- The key of a mutation, if mutations have keys. -/
def mutationKey (blueprint : Blueprint) (factory : KeyFactory) (action : String) : Option String :=
  if blueprint.settings.keys.mutationKeys then
    some (KeyExpr.mutationText factory blueprint.settings.keys.style action)
  else none

/-- What the hook of a mutation imports from the shared keys. -/
def mutationKeyImports (blueprint : Blueprint) (factory : KeyFactory) : Fragment :=
  .when (blueprint.settings.hooks && blueprint.sharesKeys)
    (.importing (.value "../query-keys" factory.queryKeys ++
      (if blueprint.settings.keys.mutationKeys then
        .value "../mutation-keys" factory.mutationKeys
      else {})))

/-- The file of a mutation of a table. `row` is the row that the mutation is about, if there is one
before it. -/
def mutation (blueprint : Blueprint) (factory : KeyFactory) (table : Table)
    (names : OperationNames) (action : String) (template : Request) (row : Option RowId) :
    Fragment :=
  let entityNames := table.entityNames
  let scalars := blueprint.scalars
  let payload : TypeExpr :=
    .object [.plain entityNames.entityField (rowType scalars template).nullable] true
  .document scalars names template.document ++
    rowNeeds template ++
    .answer names template.rootField payload.nullable ++
    .sender names (Fragment.allOptional template.document) ++
    Accessor.fragment blueprint.page table.name entityNames names .payload template ++
    mutationKeyImports blueprint factory ++
    .mutationHook blueprint.settings.hooks names (mutationKey blueprint factory action)
      ((KeyExpr.invalidated factory.keys row).map (keyText blueprint factory))

/-- A part of a client with the root field that its file is named after, and its description. -/
structure Entry where
  field : String
  description : String
  fragment : Fragment
deriving Inhabited

/-- The files of a table: those of its queries and those of its mutations. -/
structure Entries where
  queries : List Entry
  mutations : List Entry
deriving Inhabited

/-- The files of a table. -/
def entries (blueprint : Blueprint) (factory : KeyFactory) (table : Table)
    (templates : TableTemplates) : Entries :=
  let names := table.entityNames
  let row := some (RowId.ofTable table)
  let about (action : String) : String := "`" ++ action ++ "` mutation for " ++ names.typeName
  { queries := [
      ⟨names.allField, "List queries for " ++ names.typeName,
        list blueprint factory table templates⟩,
      ⟨names.oneField, "Single-row query for " ++ names.typeName,
        one blueprint factory table templates⟩]
    mutations := [
      ⟨names.createField, about "create",
        mutation blueprint factory table names.create "create" templates.create none⟩,
      ⟨names.updateField, about "update",
        mutation blueprint factory table names.update "update" templates.update row⟩,
      ⟨names.deleteField, about "delete",
        mutation blueprint factory table names.delete "delete" templates.delete row⟩] }

/-- The files of all tables, in the order of the tables. -/
def all (blueprint : Blueprint) : Except RequestError (List Entries) :=
  blueprint.schema.tables.mapM fun table =>
    match blueprint.keys.factory? table.entityKey with
    | some factory => (TableTemplates.of blueprint table).map (entries blueprint factory table)
    | none => .error (.unknownEntity table.name)

end TableFiles

end GraphClient
