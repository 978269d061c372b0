import GraphClient.Package.Blueprint
import GraphClient.Proofs.CacheKey.Stale
import Mathlib.Data.List.Nodup

/-!
# Separate keys

Every key of an entity begins with the entity, so the keys of different entities are apart: none of
them begins one of another entity. An entity is the name of a table in lower case. Tables whose
names differ in nothing but case are therefore the same entity: they share all keys, and the
factories of the first of them are used for all of them.

* `EntityKeys.Builds` : the keys of an entity.
* `EntityKeys.apart_iff` : the keys of two entities are apart exactly if the entities are different.
* `KeyStore.factory?_of_nodup` : the factory that is found for a table.
* `Schema.tables_have_own_keys_iff` : when the tables of a schema share neither keys nor factories.
-/

namespace GraphClient

namespace EntityKeys

/-- The keys that are built for an entity, with any scope, variables and ids. -/
inductive Builds (keys : EntityKeys) : CacheKey → Prop
  | all : Builds keys keys.all
  | byAncestor {name : String} {id : Json} {key : CacheKey}
      (h : keys.byAncestor? name id = some key) : Builds keys key
  | forScope (scope : Entries Json) : Builds keys (keys.forScope scope)
  | lists (scope : Entries Json) : Builds keys (keys.lists scope)
  | list (scope : Entries Json) (given : Json) : Builds keys (keys.list scope given)
  | details (scope : Entries Json) : Builds keys (keys.details scope)
  | detail (scope : Entries Json) (id : Json) : Builds keys (keys.detail scope id)

/-- Every key of an entity begins with the entity. -/
theorem Builds.exists_eq_cons {keys : EntityKeys} {key : CacheKey} (h : keys.Builds key) :
    ∃ rest, key = .string keys.entity :: rest := by
  have hprefix : keys.all <+: key := by
    cases h with
    | all => exact List.prefix_refl _
    | byAncestor h =>
      obtain ⟨ancestor, -, rfl⟩ := Option.map_eq_some_iff.1 h
      exact List.prefix_append [Json.string keys.entity] _
    | forScope scope => exact keys.all_isPrefix_forScope scope
    | lists scope =>
      exact (keys.all_isPrefix_forScope scope).trans (keys.forScope_isPrefix_lists scope)
    | list scope given =>
      exact (keys.all_isPrefix_forScope scope).trans (keys.forScope_isPrefix_list scope given)
    | details scope =>
      exact (keys.all_isPrefix_forScope scope).trans (keys.forScope_isPrefix_details scope)
    | detail scope id =>
      exact (keys.all_isPrefix_forScope scope).trans (keys.forScope_isPrefix_detail scope id)
  obtain ⟨rest, rfl⟩ := hprefix
  exact ⟨rest, rfl⟩

/-- No key of one entity equals or begins a key of the other. -/
def Apart (a b : EntityKeys) : Prop :=
  ∀ key key', a.Builds key → b.Builds key' → ¬ key <+: key' ∧ ¬ key' <+: key

/-- The keys of two entities are apart exactly if the entities are different. -/
theorem apart_iff {a b : EntityKeys} : a.Apart b ↔ a.entity ≠ b.entity := by
  constructor
  · -- The same entity has the same root key.
    intro h heq
    have hall : a.all = b.all := by rw [all, all, heq]
    have hnot := (h a.all b.all .all .all).1
    rw [hall] at hnot
    exact hnot (List.prefix_refl b.all)
  · intro hne key key' hkey hkey'
    obtain ⟨rest, rfl⟩ := hkey.exists_eq_cons
    obtain ⟨rest', rfl⟩ := hkey'.exists_eq_cons
    have hhead : ∀ entity entity' : String, entity ≠ entity' → ∀ rest rest' : CacheKey,
        ¬ (Json.string entity :: rest) <+: (Json.string entity' :: rest') := by
      intro entity entity' hne rest rest' hprefix
      exact hne (Json.string.inj (List.cons_prefix_cons.1 hprefix).1)
    exact ⟨hhead _ _ hne _ _, hhead _ _ (Ne.symm hne) _ _⟩

end EntityKeys

namespace KeyStore

/-- If the entities of the tables are different, the factory that is found for a table is its
own. -/
theorem factory?_of_nodup (parents : Keyed Parentage) {tables : List Table}
    (queries mutations : List String) (nodup : (tables.map (·.entityKey)).Nodup) {table : Table}
    (h : table ∈ tables) :
    (KeyStore.of parents tables queries mutations).factory? table.entityKey =
      some (.ofTable parents table) := by
  show (tables.map (KeyFactory.ofTable parents)).find? (·.keys.entity == table.entityKey) = _
  induction tables with
  | nil => cases h
  | cons first rest ih =>
    rw [List.map_cons, List.nodup_cons] at nodup
    rw [List.map_cons, List.find?_cons]
    have hentity : (KeyFactory.ofTable parents first).keys.entity = first.entityKey := rfl
    rw [hentity]
    rcases List.mem_cons.1 h with rfl | h
    · rw [beq_self_eq_true]
    · have hne : first.entityKey ≠ table.entityKey := by
        intro heq
        exact nodup.1 (heq ▸ List.mem_map_of_mem h)
      rw [beq_false_of_ne hne]
      exact ih nodup.2 h

end KeyStore

/-- The tables of a schema have keys and factories of their own exactly if their names differ in
more than case. -/
theorem Schema.tables_have_own_keys_iff (schema : Schema) (settings : Settings) :
    ((∀ table ∈ schema.tables, (Blueprint.of schema settings).keys.factory? table.entityKey =
        some (.ofTable settings.keys.parents table)) ∧
      schema.tables.Pairwise fun a b =>
        (KeyFactory.ofTable settings.keys.parents a).keys.Apart
          (KeyFactory.ofTable settings.keys.parents b).keys) ↔
    (schema.tables.map fun table => Text.lowercase table.name).Nodup := by
  have hapart : (schema.tables.Pairwise fun a b =>
      (KeyFactory.ofTable settings.keys.parents a).keys.Apart
        (KeyFactory.ofTable settings.keys.parents b).keys) ↔
      (schema.tables.map (·.entityKey)).Nodup := by
    rw [List.Nodup, List.pairwise_map]
    refine List.Pairwise.iff fun a b => ?_
    rw [EntityKeys.apart_iff]
    rfl
  rw [hapart]
  constructor
  · rintro ⟨-, nodup⟩
    exact nodup
  · intro nodup
    refine ⟨fun table htable => ?_, nodup⟩
    exact KeyStore.factory?_of_nodup settings.keys.parents _ _ nodup htable

namespace Sample

/-- The keys that users are known by. -/
def apiKeyTable : Table where
  name := "ApiKey"
  fields := [⟨"id", (TypeRef.scalar "UUID").required, none⟩]

/-- The keys of an older version. -/
def apikeyTable : Table where
  name := "Apikey"
  fields := [⟨"id", (TypeRef.scalar "UUID").required, none⟩]

def apiKeySchema : Schema := { tables := [apiKeyTable, apikeyTable] }

/-- The two tables have different names. The second one is found under the factory of the first one,
which has another name than its own, and they share all keys. -/
theorem apikey_shares_keys :
    (apiKeySchema.tables.map (·.name)).Nodup ∧
      (Blueprint.of apiKeySchema {}).keys.factory? apikeyTable.entityKey =
        some (.ofTable .empty apiKeyTable) ∧
      (KeyFactory.ofTable .empty apiKeyTable).queryKeys ≠
        (KeyFactory.ofTable .empty apikeyTable).queryKeys ∧
      ¬ (KeyFactory.ofTable .empty apiKeyTable).keys.Apart
        (KeyFactory.ofTable .empty apikeyTable).keys := by
  have hentity : apiKeyTable.entityKey = apikeyTable.entityKey := by decide
  refine ⟨by decide, by decide, by decide, ?_⟩
  rw [EntityKeys.apart_iff, not_not]
  exact hentity

end Sample

end GraphClient
