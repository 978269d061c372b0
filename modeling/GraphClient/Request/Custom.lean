import GraphClient.Request.Basic
import GraphClient.Naming.Operation

/-!
# Requests for custom operations

A custom operation has a variable for every argument. An object answer is selected through the
catalog, any other answer is taken as it is.
-/

namespace GraphClient

namespace Request

/-- The projection of the answer of a custom operation, if its shape is known. -/
def answerProjection? (catalog : Catalog) (settings : Settings) (operation : CustomOperation)
    (selection : Option Selection) : Except RequestError (Option Projection) :=
  if operation.returnType.baseKind != .object then .ok none
  else
    match catalog.find? operation.returnType.baseName with
    | none => .ok none
    | some shape => do
      let selection ← chosen catalog settings shape selection
        (settings.selection.operations.find? operation.name)
        (Selection.allScalars catalog shape settings.selection.customDepth)
      return some (selection.project catalog settings.selection.policy shape)

/-- The fields that are selected from an answer. An object without a known shape is asked for the
name of its type. -/
def answerNodes (page : PageNames) (operation : CustomOperation) :
    Option Projection → List FieldNode
  | some projection => projection.nodes page
  | none => if operation.returnType.baseKind != .object then [] else [.typename]

/-- A slot for each argument. -/
def argumentSlots (operation : CustomOperation) (values : Option (Entries Json)) : List Slot :=
  operation.arguments.map fun argument =>
    ⟨argument.name, argument.type, values.bind fun values => Entries.find? values argument.name⟩

/-- A custom operation. -/
def custom (catalog : Catalog) (settings : Settings) (operation : CustomOperation)
    (selection : Option Selection) (values : Option (Entries Json)) :
    Except RequestError Request := do
  let names := OperationNames.ofField operation.name operation.kind
  let binding ← bind names.operation (.ofSupplied values) (argumentSlots operation values)
  let projection ← answerProjection? catalog settings operation selection
  return {
    document := {
      kind := operation.kind
      name := names.operation
      declarations := binding.declarations
      selection :=
        [⟨operation.name, binding.arguments, answerNodes settings.page operation projection⟩] }
    values := binding.values
    path := [operation.name]
    firstRow := false
    projection := projection }

end Request

end GraphClient
