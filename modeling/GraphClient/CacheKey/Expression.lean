import GraphClient.CacheKey.Store
import GraphClient.Json.Printer

/-!
# Key expressions

The keys that hooks use, as expressions. An expression has a text, which calls the shared factories
or spells the key out, and a value for given variables and a given scope.

* `RowId` : how the id of a row is read off the variables.
* `KeyExpr.text` : the text of an expression.
* `KeyExpr.value` : the key that an expression stands for.
-/

namespace GraphClient

/-- How the id of a row is read off the variables of an operation. -/
inductive RowId where
  /-- The variable of the only key column. -/
  | field (name : String)
  /-- All variables, as one text. -/
  | combined
deriving Repr, DecidableEq, Inhabited

namespace RowId

/-- The id of the rows of a table. -/
def ofTable (table : Table) : RowId :=
  if table.primaryKey.isSingle then .field table.primaryKey.first.name else .combined

/-- The text of the expression. -/
def text : RowId → String
  | .field name => "variables." ++ name
  | .combined => "JSON.stringify(variables)"

/-- The id for given variables. -/
def value (given : Entries Json) : RowId → Json
  | .field name => (Entries.find? given name).getD .null
  | .combined => .string (Json.object given).compact

end RowId

/-- A key that a hook uses. -/
inductive KeyExpr where
  /-- All keys of the entity. -/
  | all
  /-- All lists without a scope. -/
  | lists
  /-- The list for the variables of the operation, within the scope of the hook. -/
  | list
  /-- The row with an id, within the scope of the hook. -/
  | detail (id : RowId)
deriving Repr, DecidableEq, Inhabited

namespace KeyExpr

/-- A key that is spelled out. -/
def spelled (parts : List String) : String :=
  "[" ++ String.intercalate ", " parts ++ "] as const"

/-- The further argument of a factory whose entity has ancestors. -/
def scopeArgument (factory : KeyFactory) : String :=
  if factory.keys.isScoped then ", scope" else ""

/-- The text of an expression. -/
def text (factory : KeyFactory) (style : KeyStyle) (expr : KeyExpr) : String :=
  let entity := "'" ++ factory.keys.entity ++ "'"
  match style, expr with
  | .centralized, .all => factory.queryKeys ++ ".all"
  | .centralized, .lists => factory.queryKeys ++ ".lists()"
  | .centralized, .list => factory.queryKeys ++ ".list(variables" ++ scopeArgument factory ++ ")"
  | .centralized, .detail id =>
    factory.queryKeys ++ ".detail(" ++ id.text ++ scopeArgument factory ++ ")"
  | .inline, .all => spelled [entity]
  | .inline, .lists => spelled [entity, "'list'"]
  | .inline, .list => spelled [entity, "'list'", "variables"]
  | .inline, .detail id => spelled [entity, "'detail'", id.text]

/-- The scope that counts: keys that are spelled out have none. -/
def effectiveScope (style : KeyStyle) (scope : Entries Json) : Entries Json :=
  match style with
  | .centralized => scope
  | .inline => []

/-- The key that an expression stands for. -/
def value (keys : EntityKeys) (style : KeyStyle) (given scope : Entries Json) :
    KeyExpr → CacheKey
  | .all => keys.all
  | .lists => keys.lists []
  | .list => keys.list (effectiveScope style scope) (.object given)
  | .detail id => keys.detail (effectiveScope style scope) (id.value given)

/-- The key of a mutation of a table. -/
def mutationText (factory : KeyFactory) (style : KeyStyle) (action : String) : String :=
  match style with
  | .centralized => factory.mutationKeys ++ "." ++ action ++ "()"
  | .inline => spelled ["'mutation'", "'" ++ factory.keys.entity ++ "'", "'" ++ action ++ "'"]

/-- The keys that a mutation of a table makes stale: all of an entity with ancestors, else the
lists, and the row if the mutation is about one. -/
def invalidated (keys : EntityKeys) (row : Option RowId) : List KeyExpr :=
  if keys.isScoped then [.all] else .lists :: row.toList.map .detail

end KeyExpr

end GraphClient
