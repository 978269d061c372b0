import GraphClient.Naming.Operation
import GraphClient.Text.Plural

/-!
# Names of entities

Everything that is generated for a table is named after its type. A given name always wins over the
derived one.
-/

namespace GraphClient

/-- The names that belong to a table. The ones that follow from the type name or its singular are
functions below. -/
structure EntityNames where
  typeName : String
  singular : String
  plural : String
  entityKey : String
  allField : String
  oneField : String
  createField : String
  updateField : String
  deleteField : String
  filterType : String
  orderByType : String
  inputType : String
  createInputType : String
  patchType : String
  updateInputType : String
  deleteInputType : String
deriving Repr, DecidableEq, Inhabited

/-- The names of a table. -/
def Table.entityNames (table : Table) : EntityNames :=
  let fields := table.rootFields.getD {}
  let given := table.inflection.getD {}
  let typeName := given.tableType.getD table.name
  let singular := Text.camelCase typeName
  let plural := Text.plural singular
  { typeName
    singular
    plural
    entityKey := table.entityKey
    allField := (fields.all <|> given.allRows).getD plural
    oneField := (fields.one <|> given.tableFieldName).getD singular
    createField := fields.create.getD ("create" ++ typeName)
    updateField := fields.update.getD ("update" ++ typeName)
    deleteField := fields.delete.getD ("delete" ++ typeName)
    filterType := given.filterType.getD (typeName ++ "Filter")
    orderByType := given.orderByType.getD (Text.pascalCase plural ++ "OrderBy")
    inputType := given.inputType.getD (typeName ++ "Input")
    createInputType := given.createInputType.getD ("Create" ++ typeName ++ "Input")
    patchType := given.patchType.getD (typeName ++ "Patch")
    updateInputType := given.updateInputType.getD ("Update" ++ typeName ++ "Input")
    deleteInputType := given.deleteInputType.getD ("Delete" ++ typeName ++ "Input") }

namespace EntityNames

/-- The field of a payload that holds the row. -/
def entityField (names : EntityNames) : String := names.singular

/-- The row type together with its relations. -/
def withRelationsType (names : EntityNames) : String := names.typeName ++ "WithRelations"

/-- The type of selections of a row. -/
def selectType (names : EntityNames) : String := names.typeName ++ "Select"

/-- The type of the scopes of cache keys. -/
def scopeType (names : EntityNames) : String := names.typeName ++ "Scope"

/-- The factory of query keys. -/
def queryKeys (names : EntityNames) : String := names.singular ++ "Keys"

/-- The factory of mutation keys. -/
def mutationKeys (names : EntityNames) : String := names.singular ++ "MutationKeys"

/-- The types of the input family, in the order in which they are written. -/
def inputFamily (names : EntityNames) : List String :=
  [names.filterType, names.orderByType, names.inputType, names.createInputType, names.patchType,
    names.updateInputType, names.deleteInputType]

/-- The list query. -/
def all (names : EntityNames) : OperationNames := .ofField names.allField .query

/-- The query for the first row of a list. -/
def first (names : EntityNames) : OperationNames := ⟨"First" ++ names.typeName, .query⟩

/-- The query for a row. -/
def one (names : EntityNames) : OperationNames := .ofField names.oneField .query

/-- The mutation that creates a row. -/
def create (names : EntityNames) : OperationNames := .ofField names.createField .mutation

/-- The mutation that changes a row. -/
def update (names : EntityNames) : OperationNames := .ofField names.updateField .mutation

/-- The mutation that deletes a row. -/
def delete (names : EntityNames) : OperationNames := .ofField names.deleteField .mutation

end EntityNames

/-- The casing of the values of an ordering: `createdAt` becomes `CREATED_AT`. -/
def orderValue (field : String) : String := Text.screamingSnakeCase field

end GraphClient
