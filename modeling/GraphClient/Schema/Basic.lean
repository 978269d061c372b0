import GraphClient.Schema.NamedType
import GraphClient.Schema.Table

/-!
# Schemas

Everything that a client is generated from: the tables, the custom root fields and the named types.
-/

namespace GraphClient

/-- Whether an operation reads or writes. -/
inductive OperationKind where
  | query
  | mutation
deriving Repr, DecidableEq, Inhabited

namespace OperationKind

/-- The keyword that opens a document of the kind. -/
def keyword : OperationKind → String
  | .query => "query"
  | .mutation => "mutation"

/-- The ending of the names of operations. -/
def ending : OperationKind → String
  | .query => "Query"
  | .mutation => "Mutation"

end OperationKind

/-- A root field that is not one of the root fields of a table. -/
structure CustomOperation where
  name : String
  kind : OperationKind
  arguments : List InputValue := []
  returnType : TypeRef
  description : Option String := none
deriving Repr, DecidableEq, Inhabited

/-- A schema. -/
structure Schema where
  tables : List Table := []
  queries : List CustomOperation := []
  mutations : List CustomOperation := []
  registry : TypeRegistry := {}
deriving Inhabited

namespace Schema

/-- The first table with a name. -/
def table? (schema : Schema) (name : String) : Option Table :=
  schema.tables.find? (·.name == name)

/-- The custom root fields, queries first. -/
def operations (schema : Schema) : List CustomOperation := schema.queries ++ schema.mutations

/-- The first custom root field with a name. -/
def operation? (schema : Schema) (name : String) : Option CustomOperation :=
  schema.operations.find? (·.name == name)

end Schema

end GraphClient
