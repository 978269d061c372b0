import GraphClient.CacheKey.Store
import GraphClient.TypeScript.SourceFile

/-!
# Files of key factories

The items of the two files that hold the shared key factories: constants with the key builders of
each entity and of the custom operations, and the stores that hold all of them.
-/

namespace GraphClient

open TypeScript (TypeExpr Property Declaration Definition Item)

namespace KeyFactory

/-- A constant object with one line for each entry. -/
def constObject (name : String) (lines : List String) : Item :=
  .definition {
    words := "const"
    name
    rest := " = \x7b\n" ++ String.join (lines.map fun line => "  " ++ line ++ "\n") ++
      "\x7d as const;" }

/-- The scope of an entity: the ids of its ancestors. -/
def scopeInterface (factory : KeyFactory) : Declaration :=
  .interface factory.scopeType (factory.keys.ancestors.map fun ancestor =>
    .possible ancestor.foreignKey (TypeExpr.named "string").nullable)

/-- The builder of the keys within an ancestor. -/
def ancestorLine (factory : KeyFactory) (ancestor : Ancestor) : String :=
  ancestor.builder ++ ": (" ++ ancestor.foreignKey ++ ": string) => ['" ++ factory.keys.entity ++
    "', \x7b " ++ ancestor.foreignKey ++ " \x7d] as const,"

/-- The lines that look for an ancestor in a scope. -/
def scopedLines (factory : KeyFactory) (ancestor : Ancestor) : List String :=
  ["  if (scope?." ++ ancestor.foreignKey ++ " != null) \x7b",
    "    return " ++ factory.queryKeys ++ "." ++ ancestor.builder ++ "(scope." ++
      ancestor.foreignKey ++ ");",
    "  \x7d"]

/-- The lines of the query keys of an entity. -/
def queryKeyLines (factory : KeyFactory) : List String :=
  let name := factory.queryKeys
  ("all: ['" ++ factory.keys.entity ++ "'] as const,") ::
    if factory.keys.isScoped then
      let scope := "scope?: " ++ factory.scopeType
      factory.keys.ancestors.map factory.ancestorLine ++
        ["scoped: (" ++ scope ++ ") => \x7b"] ++
        factory.keys.ancestors.flatMap factory.scopedLines ++
        ["  return " ++ name ++ ".all;",
          "\x7d,",
          "lists: (" ++ scope ++ ") => [..." ++ name ++ ".scoped(scope), 'list'] as const,",
          "list: (variables?: object, " ++ scope ++ ") => [..." ++ name ++
            ".lists(scope), variables] as const,",
          "details: (" ++ scope ++ ") => [..." ++ name ++ ".scoped(scope), 'detail'] as const,",
          "detail: (id: string | number, " ++ scope ++ ") => [..." ++ name ++
            ".details(scope), id] as const,"]
    else
      ["lists: () => [..." ++ name ++ ".all, 'list'] as const,",
        "list: (variables?: object) => [..." ++ name ++ ".lists(), variables] as const,",
        "details: () => [..." ++ name ++ ".all, 'detail'] as const,",
        "detail: (id: string | number) => [..." ++ name ++ ".details(), id] as const,"]

/-- The items for the query keys of an entity. -/
def queryKeyItems (factory : KeyFactory) : List Item :=
  (if factory.keys.isScoped then [.exported factory.scopeInterface] else []) ++
    [constObject factory.queryKeys factory.queryKeyLines]

/-- The lines of the mutation keys of an entity. -/
def mutationKeyLines (factory : KeyFactory) : List String :=
  ("all: ['mutation', '" ++ factory.keys.entity ++ "'] as const,") ::
    ["create", "update", "delete"].map fun action =>
      action ++ ": () => [..." ++ factory.mutationKeys ++ ".all, '" ++ action ++ "'] as const,"

end KeyFactory

namespace KeyStore

/-- An entry of a store. -/
def entryLine (property factory : String) : String := property ++ ": " ++ factory ++ ","

/-- The items of the file of query keys. -/
def queryKeyItems (store : KeyStore) : List Item :=
  store.factories.flatMap (·.queryKeyItems) ++
    (if store.customQueries.isEmpty then []
      else [KeyFactory.constObject store.customQueryKeys (store.customQueries.map fun name =>
        name ++ ": (variables?: object) => ['" ++ name ++ "', variables] as const,")]) ++
    [KeyFactory.constObject "queryKeys"
        (store.factories.map (fun factory => entryLine factory.storeKey factory.queryKeys) ++
          (if store.customQueries.isEmpty then []
            else [entryLine store.customScope store.customQueryKeys])),
      .exported (.typeAlias "QueryKeyScope" (.keys (.named "typeof queryKeys")))]

/-- The items of the file of mutation keys. -/
def mutationKeyItems (store : KeyStore) : List Item :=
  store.factories.map (fun factory =>
      KeyFactory.constObject factory.mutationKeys factory.mutationKeyLines) ++
    (if store.customMutations.isEmpty then []
      else [KeyFactory.constObject store.customMutationKeys (store.customMutations.map fun name =>
        name ++ ": () => ['mutation', '" ++ name ++ "'] as const,")]) ++
    [KeyFactory.constObject "mutationKeys"
        (store.factories.map (fun factory => entryLine factory.storeKey factory.mutationKeys) ++
          (if store.customMutations.isEmpty then []
            else [entryLine store.customScope store.customMutationKeys]))]

end KeyStore

end GraphClient
