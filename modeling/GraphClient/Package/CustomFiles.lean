import GraphClient.Package.Fragment
import GraphClient.Request.Custom

/-!
# Files of custom operations

One file for each custom operation, and the file of the types that only custom operations need.
-/

namespace GraphClient

open TypeScript (TypeExpr Item ImportSet SourceFile)

namespace CustomFiles

/-- The type of the answers of an operation, where `row` is the type of an object. -/
def answerType (wire : TypeRef) (row : TypeExpr) : TypeExpr :=
  (row.arrayIf wire.isList).nullableIf (!wire.isRequired)

/-- The type of the answers of a custom operation. -/
def resultType (scalars : ScalarSettings) (operation : CustomOperation)
    (projection : Option Projection) : TypeExpr :=
  match projection with
  | some projection => answerType operation.returnType (projection.expr scalars)
  | none =>
    if operation.returnType.baseKind == .object then
      answerType operation.returnType (.object [typenameProperty] false)
    else scalars.nullableExpr operation.returnType

/-- What the type of the answers needs. -/
def resultNeeds (operation : CustomOperation) (projection : Option Projection) : Fragment :=
  match projection with
  | some projection => .projection projection
  | none =>
    if operation.returnType.baseKind == .object then {}
    else { mentions := operation.returnType.mentions }

/-- The hook of a custom query. -/
def queryHook (blueprint : Blueprint) (names : OperationNames) (optional : Bool) (field : String) :
    Fragment :=
  let wanted := blueprint.settings.hooks
  if blueprint.sharesKeys then
    let keys := blueprint.keys.customQueryKeys
    .when wanted (.importing (.value "../query-keys" keys)) ++
      .queryHook wanted names optional (keys ++ "." ++ field ++ "(variables)") none
  else .queryHook wanted names optional (KeyExpr.spelled ["'" ++ field ++ "'", "variables"]) none

/-- The hook of a custom mutation. -/
def mutationHook (blueprint : Blueprint) (names : OperationNames) (field : String) : Fragment :=
  let wanted := blueprint.settings.hooks
  if !blueprint.settings.keys.mutationKeys then .mutationHook wanted names none []
  else if blueprint.sharesKeys then
    let keys := blueprint.keys.customMutationKeys
    .when wanted (.importing (.value "../mutation-keys" keys)) ++
      .mutationHook wanted names (some (keys ++ "." ++ field ++ "()")) []
  else
    .mutationHook wanted names (some (KeyExpr.spelled ["'mutation'", "'" ++ field ++ "'"])) []

/-- The hook of a custom operation. -/
def hook (blueprint : Blueprint) (operation : CustomOperation) (names : OperationNames)
    (optional : Bool) : Fragment :=
  match operation.kind with
  | .query => queryHook blueprint names optional operation.name
  | .mutation => mutationHook blueprint names operation.name

/-- The first line of the header of an operation's file. -/
def description (operation : CustomOperation) : String :=
  match operation.description with
  | some text => (Text.lines text).headD ""
  | none => "Custom " ++ operation.kind.keyword ++ " `" ++ operation.name ++ "`"

/-- The parts of the file of a custom operation, made from its template. -/
def fragment (blueprint : Blueprint) (operation : CustomOperation) (template : Request) :
    Fragment :=
  let names := OperationNames.ofField operation.name operation.kind
  let scalars := blueprint.scalars
  let optional := Fragment.allOptional template.document
  .document scalars names template.document ++
    resultNeeds operation template.projection ++
    .answer names operation.name (resultType scalars operation template.projection) ++
    .sender names optional ++
    hook blueprint operation names optional

/-- The parts of the files of some custom operations with the operations. The first operation whose
template cannot be made is reported by its name. -/
def fragments (blueprint : Blueprint) (operations : List CustomOperation) :
    Except RequestError (List (CustomOperation × Fragment)) :=
  operations.mapM fun operation =>
    ((Request.custom blueprint.catalog blueprint.settings operation none none).mapError
      (.customOperation operation.name)).map fun template =>
        (operation, fragment blueprint operation template)

/-- The names that custom operations mention and that are not defined for tables. -/
def schemaTypes (defined : NameSet) (fragments : List (CustomOperation × Fragment)) : NameSet :=
  NameSet.ofList (fragments.flatMap fun p => (p.2.references defined).schemaTypes.names)

/-- The file of the types that only custom operations need, if there are any. -/
def schemaTypesFile? (blueprint : Blueprint) (defined roots : NameSet) : Option SourceFile :=
  let definitions := blueprint.definitions defined roots.names
  if definitions.items.isEmpty then none
  else some {
    header := some (fileHeader "Schema types used by custom operations")
    imports := (ImportSet.typesFrom "./types" definitions.elsewhere.names).statements
    items := definitions.items.map Prod.snd }

end CustomFiles

end GraphClient
