import GraphClient.CacheKey.Ancestry
import GraphClient.Json.Basic

/-!
# Keys of entities

The cache keys of an entity are lists of JSON values. All of them begin with the entity; a scope
adds the id of an ancestor, and then follow the keys of lists and of single rows. A key that is a
prefix of others stands for all of them.
-/

namespace GraphClient

/-- A cache key. -/
abbrev CacheKey := List Json

/-- An entity with its ancestors. -/
structure EntityKeys where
  entity : String
  ancestors : List Ancestor
deriving Repr, DecidableEq, Inhabited

namespace EntityKeys

/-- The keys of an entity. -/
def of (parents : Keyed Parentage) (entity : String) : EntityKeys :=
  ⟨entity, Ancestry.of parents entity⟩

/-- Whether the entity has ancestors. -/
def isScoped (keys : EntityKeys) : Bool := !keys.ancestors.isEmpty

/-- The key that all keys of the entity begin with. -/
def all (keys : EntityKeys) : CacheKey := [.string keys.entity]

/-- The key of the rows that belong to one row of an ancestor. -/
def within (keys : EntityKeys) (ancestor : Ancestor) (id : Json) : CacheKey :=
  [.string keys.entity, .object [(ancestor.foreignKey, id)]]

/-- The key of the rows that belong to one row of the ancestor with a name. -/
def byAncestor? (keys : EntityKeys) (name : String) (id : Json) : Option CacheKey :=
  (keys.ancestors.find? (·.entity == name)).map fun ancestor => keys.within ancestor id

/-- The id of an ancestor in a scope; null does not count. -/
def idIn? (scope : Entries Json) (ancestor : Ancestor) : Option Json :=
  match Entries.find? scope ancestor.foreignKey with
  | none | some .null => none
  | some id => some id

/-- The most specific key for a scope: that of the nearest ancestor with an id in the scope. -/
def forScope (keys : EntityKeys) (scope : Entries Json) : CacheKey :=
  (keys.ancestors.findSome? fun ancestor => (idIn? scope ancestor).map (keys.within ancestor)).getD
    keys.all

/-- The key that the keys of all lists begin with. -/
def lists (keys : EntityKeys) (scope : Entries Json) : CacheKey :=
  keys.forScope scope ++ [.string "list"]

/-- The key of the list for some variables. -/
def list (keys : EntityKeys) (scope : Entries Json) (given : Json) : CacheKey :=
  keys.lists scope ++ [given]

/-- The key that the keys of all single rows begin with. -/
def details (keys : EntityKeys) (scope : Entries Json) : CacheKey :=
  keys.forScope scope ++ [.string "detail"]

/-- The key of the row with an id. -/
def detail (keys : EntityKeys) (scope : Entries Json) (id : Json) : CacheKey :=
  keys.details scope ++ [id]

end EntityKeys

end GraphClient
