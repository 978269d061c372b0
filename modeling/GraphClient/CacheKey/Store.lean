import GraphClient.CacheKey.EntityKeys
import GraphClient.Naming.Entity

/-!
# The store of key factories

One factory for each table, and a namespace for the custom operations whose name does not collide
with any factory.
-/

namespace GraphClient

/-- The key factories of a table with the names they are written under. -/
structure KeyFactory where
  /-- The property of the store. -/
  storeKey : String
  queryKeys : String
  mutationKeys : String
  scopeType : String
  keys : EntityKeys
deriving Repr, DecidableEq, Inhabited

/-- The factories of a table. -/
def KeyFactory.ofTable (parents : Keyed Parentage) (table : Table) : KeyFactory :=
  let names := table.entityNames
  { storeKey := names.singular
    queryKeys := names.queryKeys
    mutationKeys := names.mutationKeys
    scopeType := names.scopeType
    keys := .of parents names.entityKey }

namespace CustomScope

/-- The factory of the query keys of a namespace. -/
def queryKeys (scope : String) : String := scope ++ "QueryKeys"

/-- The factory of the mutation keys of a namespace. -/
def mutationKeys (scope : String) : String := scope ++ "MutationKeys"

/-- Whether a factory has one of the names that a namespace needs. -/
def collides (scope : String) (factory : KeyFactory) : Bool :=
  let needed := [queryKeys scope, mutationKeys scope]
  factory.storeKey == scope || needed.contains factory.queryKeys ||
    needed.contains factory.mutationKeys

/-- Whether no factory has one of the names that a namespace needs. -/
def isFree (factories : List KeyFactory) (scope : String) : Bool :=
  !factories.any (collides scope)

/-- The candidates for the namespace: `custom`, `customOperations`, `customOperations2`, … -/
def candidate : Nat → String
  | 0 => "custom"
  | 1 => "customOperations"
  | n + 2 => "customOperations" ++ toString (n + 2)

/-- The first free candidate. A factory takes at most one of them away, so one of the first
candidates is free, one more than there are factories. -/
def choose (factories : List KeyFactory) : String :=
  (((List.range (factories.length + 1)).map candidate).find? (isFree factories)).getD
    (candidate factories.length)

end CustomScope

/-- All key factories of a client. -/
structure KeyStore where
  factories : List KeyFactory
  customQueries : List String
  customMutations : List String
deriving Repr, DecidableEq, Inhabited

namespace KeyStore

/-- The store for some tables and custom operations. -/
def of (parents : Keyed Parentage) (tables : List Table)
    (customQueries customMutations : List String) :
    KeyStore := ⟨tables.map (KeyFactory.ofTable parents), customQueries, customMutations⟩

/-- The namespace of the custom operations. -/
def customScope (store : KeyStore) : String := CustomScope.choose store.factories

/-- The factory of the keys of the custom queries. -/
def customQueryKeys (store : KeyStore) : String := CustomScope.queryKeys store.customScope

/-- The factory of the keys of the custom mutations. -/
def customMutationKeys (store : KeyStore) : String := CustomScope.mutationKeys store.customScope

/-- The factory of an entity: the first one with its key. -/
def factory? (store : KeyStore) (entity : String) : Option KeyFactory :=
  store.factories.find? (·.keys.entity == entity)

/-- Every table has a factory in the key store. -/
theorem exists_factory?_of_mem {tables : List Table} {table : Table} (h : table ∈ tables)
    (parents : Keyed Parentage) (queries mutations : List String) :
    ∃ factory, (of parents tables queries mutations).factory? table.entityKey =
      some factory := by
  rw [← Option.isSome_iff_exists, factory?, List.find?_isSome]
  refine ⟨.ofTable parents table, List.mem_map.2 ⟨table, h, rfl⟩, ?_⟩
  exact beq_self_eq_true table.entityKey

/-- The properties of the store of query keys. -/
def scopes (store : KeyStore) : List String :=
  store.factories.map (·.storeKey) ++
    (if store.customQueries.isEmpty then [] else [store.customScope])

end KeyStore

end GraphClient
