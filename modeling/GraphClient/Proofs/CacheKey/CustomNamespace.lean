import GraphClient.Proofs.CacheKey.FactoryNames
import Mathlib.Data.Nat.Find

/-!
# The search for a namespace

The namespace of the custom operations is searched for among numbered candidates. They are tried one
after the other until no factory of a table has a name that the namespace needs. A table is in the
way of one candidate at most, so the search ends with the first free candidate, after one more trial
than there are tables at the latest.

* `CustomScope.Free` : no factory has a name that a namespace needs.
* `CustomScope.Search` : the search from a candidate on, with the number of its trials.
* `KeyStore.customScope_first_free` : the search ends, and what its result keeps apart.
-/

namespace GraphClient

namespace CustomScope

/-! ## Free candidates -/

/-- A namespace is free: no factory stands under its name, and none is called like one of the two
factories of the namespace. -/
structure Free (factories : List KeyFactory) (scope : String) : Prop where
  storeKey : ∀ factory ∈ factories, factory.storeKey ≠ scope
  query : ∀ factory ∈ factories,
    factory.queryKeys ≠ queryKeys scope ∧ factory.queryKeys ≠ mutationKeys scope
  mutation : ∀ factory ∈ factories,
    factory.mutationKeys ≠ queryKeys scope ∧ factory.mutationKeys ≠ mutationKeys scope

theorem isFree_iff (factories : List KeyFactory) (scope : String) :
    isFree factories scope = true ↔ Free factories scope := by
  have hcollides (factory : KeyFactory) : collides scope factory = false ↔
      factory.storeKey ≠ scope ∧
        (factory.queryKeys ≠ queryKeys scope ∧ factory.queryKeys ≠ mutationKeys scope) ∧
        (factory.mutationKeys ≠ queryKeys scope ∧ factory.mutationKeys ≠ mutationKeys scope) := by
    simp [collides, and_assoc]
  rw [isFree, Bool.not_eq_true', List.any_eq_false]
  simp only [Bool.not_eq_true, hcollides]
  constructor
  · intro h
    exact ⟨fun factory hmem => (h factory hmem).1, fun factory hmem => (h factory hmem).2.1,
      fun factory hmem => (h factory hmem).2.2⟩
  · intro h factory hmem
    exact ⟨h.storeKey factory hmem, h.query factory hmem, h.mutation factory hmem⟩

/-- There is a first free candidate, with no more taken ones before it than there are factories. -/
theorem exists_first_free {factories : List KeyFactory}
    (named : ∀ factory ∈ factories, factory.IsNamed) :
    ∃ n ≤ factories.length, Free factories (candidate n) ∧
      ∀ m < n, ¬ Free factories (candidate m) := by
  obtain ⟨bound, hbound, hfree⟩ := exists_isFree named
  have hexists : ∃ n, isFree factories (candidate n) = true := ⟨bound, hfree⟩
  refine ⟨Nat.find hexists, ?_, ?_, fun m hm => ?_⟩
  · exact Nat.le_trans (Nat.find_min' hexists hfree) (Nat.lt_succ_iff.1 hbound)
  · exact (isFree_iff _ _).1 (Nat.find_spec hexists)
  · rw [← isFree_iff]
    exact Nat.find_min hexists hm

/-- The first free candidate is chosen. -/
theorem choose_eq {factories : List KeyFactory} {n : Nat} (hn : n ≤ factories.length)
    (free : Free factories (candidate n)) (taken : ∀ m < n, ¬ Free factories (candidate m)) :
    choose factories = candidate n := by
  have hfind : (List.range (factories.length + 1)).find? (isFree factories ∘ candidate) =
      some n := by
    rw [List.find?_range_eq_some]
    refine ⟨(isFree_iff _ _).2 free, List.mem_range.2 (Nat.lt_succ_of_le hn), fun m hm => ?_⟩
    have hm := taken m hm
    rw [← isFree_iff, Bool.not_eq_true] at hm
    rw [Function.comp_apply, hm]
    rfl
  rw [choose, List.find?_map, hfind]
  rfl

/-! ## The search -/

/-- The search from a candidate on: the candidate is taken if it is free, and otherwise the search
goes on with the next one. Nothing bounds it. The number counts the candidates that are tried. -/
inductive Search (factories : List KeyFactory) : Nat → Nat → String → Prop
  | found {n : Nat} (free : Free factories (candidate n)) : Search factories n 1 (candidate n)
  | next {n tried : Nat} {scope : String} (taken : ¬ Free factories (candidate n))
      (rest : Search factories (n + 1) tried scope) : Search factories n (tried + 1) scope

/-- Where the first free candidate stands `k` places further on, the search tries the candidates up
to there and ends with it, and it has no other end. -/
theorem search_iff {factories : List KeyFactory} {k n : Nat}
    (free : Free factories (candidate (n + k)))
    (taken : ∀ m < k, ¬ Free factories (candidate (n + m))) (tried : Nat) (scope : String) :
    Search factories n tried scope ↔ tried = k + 1 ∧ scope = candidate (n + k) := by
  -- By induction on the distance: a trial that fails brings the free candidate one place nearer.
  induction k generalizing n tried with
  | zero =>
    constructor
    · intro h
      cases h with
      | found _ => exact ⟨rfl, rfl⟩
      | next taken _ => exact absurd free taken
    · rintro ⟨rfl, rfl⟩
      exact .found free
  | succ k ih =>
    have hshift (m : Nat) : n + 1 + m = n + (m + 1) := by omega
    have ih := ih (n := n + 1) (by rwa [hshift]) fun m hm => by
      rw [hshift]
      exact taken (m + 1) (Nat.succ_lt_succ hm)
    rw [hshift] at ih
    have htaken : ¬ Free factories (candidate n) := taken 0 (Nat.succ_pos k)
    constructor
    · intro h
      cases h with
      | found free => exact absurd free htaken
      | next _ rest =>
        obtain ⟨rfl, rfl⟩ := (ih _).1 rest
        exact ⟨rfl, rfl⟩
    · rintro ⟨rfl, rfl⟩
      exact .next htaken ((ih _).2 ⟨rfl, rfl⟩)

theorem queryKeys_ne_mutationKeys (scope : String) : queryKeys scope ≠ mutationKeys scope := by
  intro h
  have hending : "QueryKeys" = "MutationKeys" := (String.append_right_inj scope).1 h
  exact absurd hending (by decide)

end CustomScope

namespace KeyStore

open CustomScope (candidate Free Search)

/-- A free namespace stands beside the entities in the store if these are called differently. -/
theorem nodup_scopes {store : KeyStore} (free : Free store.factories store.customScope)
    (distinct : (store.factories.map (·.storeKey)).Nodup) : store.scopes.Nodup := by
  rw [scopes]
  split
  · rwa [List.append_nil]
  · refine List.nodup_append.2 ⟨distinct, List.nodup_singleton _, ?_⟩
    intro key hkey scope hscope
    obtain ⟨factory, hfactory, rfl⟩ := List.mem_map.1 hkey
    obtain rfl := List.mem_singleton.1 hscope
    exact free.storeKey factory hfactory

/-- The search for the namespace of the custom operations ends. It has one result, the first
candidate that is free, and tries one candidate more than there are tables at the most. If the
tables have different singular names, all properties of the store are different, and the two
factories of the namespace are called differently from each other and from all those of tables. -/
theorem customScope_first_free (parents : Keyed Parentage) (tables : List Table)
    (queries mutations : List String) :
    let store := of parents tables queries mutations
    (∃ n ≤ tables.length, store.customScope = candidate n ∧
      Free store.factories (candidate n) ∧ (∀ m < n, ¬ Free store.factories (candidate m)) ∧
      ∀ tried scope, Search store.factories 0 tried scope ↔
        tried = n + 1 ∧ scope = store.customScope) ∧
    ((tables.map (·.entityNames.singular)).Nodup →
      store.scopes.Nodup ∧ store.customQueryKeys ≠ store.customMutationKeys ∧
      ∀ table ∈ tables,
        store.customQueryKeys ∉ [table.entityNames.queryKeys, table.entityNames.mutationKeys] ∧
        store.customMutationKeys ∉
          [table.entityNames.queryKeys, table.entityNames.mutationKeys]) := by
  intro store
  have named : ∀ factory ∈ store.factories, factory.IsNamed := by
    intro factory hfactory
    obtain ⟨table, -, rfl⟩ := List.mem_map.1 hfactory
    exact KeyFactory.isNamed_ofTable parents table
  have hlength : store.factories.length = tables.length := List.length_map _
  obtain ⟨n, hn, free, taken⟩ := CustomScope.exists_first_free named
  have hscope : store.customScope = candidate n := CustomScope.choose_eq hn free taken
  constructor
  · refine ⟨n, hlength ▸ hn, hscope, free, taken, fun tried scope => ?_⟩
    rw [hscope]
    have hsearch := CustomScope.search_iff (k := n) (n := 0) (by rwa [Nat.zero_add])
      (fun m hm => by rw [Nat.zero_add]; exact taken m hm) tried scope
    rwa [Nat.zero_add] at hsearch
  · intro distinct
    rw [← hscope] at free
    refine ⟨nodup_scopes free ?_, CustomScope.queryKeys_ne_mutationKeys _, ?_⟩
    · rwa [show store.factories.map (·.storeKey) = tables.map (·.entityNames.singular) from
        List.map_map]
    · intro table htable
      have hfactory : KeyFactory.ofTable parents table ∈ store.factories :=
        List.mem_map_of_mem htable
      have hquery := free.query _ hfactory
      have hmutation := free.mutation _ hfactory
      simp only [List.mem_cons, List.not_mem_nil, or_false, not_or]
      exact ⟨⟨hquery.1.symm, hmutation.1.symm⟩, hquery.2.symm, hmutation.2.symm⟩

end KeyStore

namespace Sample

open CustomScope (candidate)

/-- One table takes the first candidate away, another one a factory of the second candidate. -/
def customTables : List Table := [{ name := "Custom" }, { name := "CustomOperationsQuery" }]

/-- The custom operations get the third candidate, beside which the tables stand. -/
theorem customTables_scopes :
    (customTables.map (·.entityNames.singular)).Nodup ∧
    (KeyStore.of .empty customTables ["search"] []).scopes =
      ["custom", "customOperationsQuery", "customOperations2"] ∧
    (KeyStore.of .empty customTables ["search"] []).scopes.Nodup ∧
    CustomScope.Search (KeyStore.of .empty customTables ["search"] []).factories 0 3
      "customOperations2" := by
  have hdistinct : (customTables.map (·.entityNames.singular)).Nodup := by decide
  have hscope : (KeyStore.of .empty customTables ["search"] []).customScope = candidate 2 := rfl
  obtain ⟨⟨n, -, hn, -, -, hsearch⟩, happart⟩ :=
    KeyStore.customScope_first_free .empty customTables ["search"] []
  obtain rfl : 2 = n := CustomScope.candidate_injective (hscope.symm.trans hn)
  exact ⟨hdistinct, rfl, (happart hdistinct).1, (hsearch 3 _).2 ⟨rfl, hscope.symm⟩⟩

end Sample

end GraphClient
