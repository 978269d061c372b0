import GraphClient.Schema.Basic
import GraphClient.Text.Casing

/-!
# Names of operations

Everything that is generated for one operation is named after a base in Pascal case and the kind of
the operation.
-/

namespace GraphClient

/-- What the names of an operation are made of. -/
structure OperationNames where
  base : String
  kind : OperationKind
deriving Repr, DecidableEq, Inhabited

namespace OperationNames

/-- The names of the operation that selects a root field. -/
def ofField (field : String) (kind : OperationKind) : OperationNames :=
  ⟨Text.pascalCase field, kind⟩

/-- The operation itself: `UsersQuery`. -/
def operation (names : OperationNames) : String := names.base ++ names.kind.ending

/-- The operation with a small letter first: `usersQuery`. -/
def camel (names : OperationNames) : String := Text.camelCase names.operation

/-- The constant that holds the document: `usersQueryDocument`. -/
def document (names : OperationNames) : String := names.camel ++ "Document"

/-- The type of the variables: `UsersQueryVariables`. -/
def variablesType (names : OperationNames) : String := names.operation ++ "Variables"

/-- The type of the answer: `UsersQueryResult`. -/
def result (names : OperationNames) : String := names.operation ++ "Result"

/-- The function that sends the document: `fetchUsersQuery`, `createUserMutation`. -/
def function (names : OperationNames) : String :=
  match names.kind with
  | .query => "fetch" ++ names.operation
  | .mutation => names.camel

/-- The hook: `useUsersQuery`. -/
def hook (names : OperationNames) : String := "use" ++ names.operation

/-- The function that fills the cache ahead of time: `prefetchUsersQuery`. -/
def prefetch (names : OperationNames) : String := "prefetch" ++ names.operation

/-- The accessor that takes a selection: `fetchUsers`, `createUser`. -/
def accessor (names : OperationNames) : String :=
  match names.kind with
  | .query => "fetch" ++ names.base
  | .mutation => Text.camelCase names.base

/-- The function from selections to documents: `usersSelectDocument`. -/
def selectDocument (names : OperationNames) : String :=
  Text.camelCase names.base ++ "SelectDocument"

end OperationNames

end GraphClient
