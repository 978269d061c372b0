import GraphClient.Naming.Entity
import GraphClient.Request.Basic

/-!
# Requests for tables

Lists of rows, the first row of a list, a row by its key, and the creation, change and deletion of a
row. Each of them is a template if no value is given.
-/

namespace GraphClient

/-- The values for a list of rows. -/
structure ListArguments where
  filter : Option Json := none
  orderBy : Option (List String) := none
  first : Option Nat := none
  last : Option Nat := none
  offset : Option Nat := none
  before : Option String := none
  after : Option String := none
deriving Inhabited

namespace Request

/-- The fields of a page that tell about it. -/
def pageInfoNodes : List FieldNode :=
  ["hasNextPage", "hasPreviousPage", "startCursor", "endCursor"].map FieldNode.leaf

/-- The slots by which rows are chosen and ordered. -/
def choosingSlots (names : EntityNames) (page : PageNames) (arguments : ListArguments) :
    List Slot :=
  [⟨page.filter, .inputObject names.filterType, arguments.filter⟩,
    ⟨page.order, .list (.nonNull (.enumeration names.orderByType)),
      arguments.orderBy.map fun values => .array (values.map Json.string)⟩]

/-- The slots by which a part of the rows is taken. -/
def pagingSlots (arguments : ListArguments) : List Slot :=
  let number (value : Option Nat) : Option Json := value.map fun n => .int n
  [⟨"first", .scalar "Int", number arguments.first⟩,
    ⟨"last", .scalar "Int", number arguments.last⟩,
    ⟨"offset", .scalar "Int", number arguments.offset⟩,
    ⟨"before", .scalar "Cursor", arguments.before.map Json.string⟩,
    ⟨"after", .scalar "Cursor", arguments.after.map Json.string⟩]

/-- The fields of a page of rows. -/
def pageNodes (page : PageNames) (projection : Projection) : List FieldNode :=
  [.leaf page.count, .withSelection page.rows (projection.nodes page),
    .withSelection page.info pageInfoNodes]

/-- The document of a list query. -/
def listDocument (names : EntityNames) (page : PageNames) (operation : OperationNames)
    (binding : Binding) (further : List (String × Literal)) (projection : Projection) :
    Document where
  kind := .query
  name := operation.operation
  declarations := binding.declarations
  selection := [⟨names.allField, binding.arguments ++ further, pageNodes page projection⟩]

/-- A page of rows. -/
def findMany (catalog : Catalog) (settings : Settings) (table : Table)
    (selection : Option Selection) (arguments : Option ListArguments) :
    Except RequestError Request := do
  let names := table.entityNames
  let projection ← rowProjection catalog settings table selection
  let given := arguments.getD {}
  let binding ← bind names.all.operation (.ofSupplied arguments)
    (choosingSlots names settings.page given ++ pagingSlots given)
  return {
    document := listDocument names settings.page names.all binding [] projection
    values := binding.values
    path := [names.allField]
    firstRow := false
    projection := some projection }

/-- The first row of a list, which is asked for with a page of one row. -/
def findFirst (catalog : Catalog) (settings : Settings) (table : Table)
    (selection : Option Selection) (arguments : Option ListArguments) :
    Except RequestError Request := do
  let names := table.entityNames
  let projection ← rowProjection catalog settings table selection
  let binding ← bind names.first.operation (.ofSupplied arguments)
    (choosingSlots names settings.page (arguments.getD {}))
  return {
    document := listDocument names settings.page names.first binding [("first", .int 1)] projection
    values := binding.values
    path := [names.allField, settings.page.rows]
    firstRow := true
    projection := some projection }

/-- The value of a key column: the field of an object, or the bare value of a key of one column. -/
def keyValue (key : PrimaryKey) (name : String) : Json → Option Json
  | .object fields => Entries.find? fields name
  | value => if key.isSingle then some value else none

/-- A slot for each column of the primary key. -/
def keySlots (table : Table) (value : Option Json) : List Slot :=
  table.primaryKey.fields.map fun field =>
    ⟨field.name, field.type, value.bind (keyValue table.primaryKey field.name)⟩

/-- A row by its key. -/
def findOne (catalog : Catalog) (settings : Settings) (table : Table)
    (selection : Option Selection) (key : Option Json) : Except RequestError Request := do
  let names := table.entityNames
  let projection ← rowProjection catalog settings table selection
  let binding ← bind names.one.operation (.ofSupplied key) (keySlots table key)
  return {
    document := {
      kind := .query
      name := names.one.operation
      declarations := binding.declarations
      selection := [⟨names.oneField, binding.arguments, projection.nodes settings.page⟩] }
    values := binding.values
    path := [names.oneField]
    firstRow := false
    projection := some projection }

/-- A mutation whose payload holds a row. -/
def rowMutation (names : EntityNames) (page : PageNames) (operation : OperationNames)
    (field : String) (binding : Binding) (arguments : List (String × Literal))
    (projection : Projection) : Request where
  document := {
    kind := .mutation
    name := operation.operation
    declarations := binding.declarations
    selection :=
      [⟨field, arguments, [.withSelection names.entityField (projection.nodes page)]⟩] }
  values := binding.values
  path := [field, names.entityField]
  firstRow := false
  projection := some projection

/-- The creation of a row. Its data is passed under the name of the entity. -/
def create (catalog : Catalog) (settings : Settings) (table : Table)
    (selection : Option Selection) (data : Option Json) : Except RequestError Request := do
  let names := table.entityNames
  let projection ← rowProjection catalog settings table selection
  let input := data.map fun data => Json.object [(names.entityField, data)]
  let binding ← bind names.create.operation (.ofSupplied data)
    [⟨"input", .nonNull (.inputObject names.createInputType), input⟩]
  return rowMutation names settings.page names.create names.createField binding binding.arguments
    projection

/-- The change of a row. The key and the patch are variables of their own, put together in the
document. -/
def update (catalog : Catalog) (settings : Settings) (table : Table)
    (selection : Option Selection) (key patch : Option Json) : Except RequestError Request := do
  let names := table.entityNames
  let projection ← rowProjection catalog settings table selection
  let binding ← bind names.update.operation (.ofSupplied (key <|> patch))
    (keySlots table key ++ [⟨"patch", .nonNull (.inputObject names.patchType), patch⟩])
  return rowMutation names settings.page names.update names.updateField binding
    [("input", .object binding.arguments)] projection

/-- The projection of a deleted row. If only the key is answered, it is the key, whatever is
selected. -/
def deletedProjection (catalog : Catalog) (settings : Settings) (table : Table)
    (selection : Option Selection) : Except RequestError Projection :=
  match settings.deleteAnswer with
  | .entity => rowProjection catalog settings table selection
  | .key => do
    let shape ← shapeOf catalog table
    return (Selection.ofFields table.primaryKey.names).project catalog settings.selection.policy
      shape

/-- The deletion of a row. -/
def delete (catalog : Catalog) (settings : Settings) (table : Table)
    (selection : Option Selection) (key : Option Json) : Except RequestError Request := do
  let names := table.entityNames
  let projection ← deletedProjection catalog settings table selection
  let binding ← bind names.delete.operation (.ofSupplied key) (keySlots table key)
  return rowMutation names settings.page names.delete names.deleteField binding
    [("input", .object binding.arguments)] projection

end Request

end GraphClient
