import GraphClient.CacheKey.Files
import GraphClient.Proofs.Document.Literal
import GraphClient.Proofs.Text.Ending
import Mathlib.Data.List.Nodup
import Mathlib.Data.List.Perm.Subperm

/-!
# Names of key factories

The files of keys export the factories of the tables and those of the custom operations. The latter
have a namespace of their own, whose name is chosen so that no table has it.

* `CustomScope.isFree_choose` : the namespace is free.
* `KeyStore.exportedNames_perm` : what the files of keys export.
* `KeyStore.nodup_exportedNames_iff` : when these names are distinct.
-/

namespace GraphClient

/-! ## The namespace of the custom operations -/

/-- The factories are called after the property of the store. -/
structure KeyFactory.IsNamed (factory : KeyFactory) : Prop where
  queryKeys : factory.queryKeys = factory.storeKey ++ "Keys"
  mutationKeys : factory.mutationKeys = factory.storeKey ++ "MutationKeys"
  scopeType : ∃ type, factory.scopeType = type ++ "Scope"

/-- The factory of a table has names that are made from the table's. -/
theorem KeyFactory.isNamed_ofTable (parents : Keyed Parentage) (table : Table) :
    (ofTable parents table).IsNamed := ⟨rfl, rfl, _, rfl⟩

namespace CustomScope

/-- The factories of a namespace are called like those of tables with these names. -/
def stems (scope : String) : List String := [scope ++ "Query", scope ++ "Mutation"]

/-- The query keys of custom operations are named for their scope. -/
theorem queryKeys_eq (scope : String) : queryKeys scope = scope ++ "Query" ++ "Keys" := by
  rw [String.append_assoc]
  rfl

/-- The mutation keys of custom operations are named for their scope. -/
theorem mutationKeys_eq (scope : String) :
    mutationKeys scope = scope ++ "Mutation" ++ "Keys" := by
  rw [String.append_assoc]
  rfl

/-- Two names that end differently are different. -/
theorem append_query_ne_append_mutation (a b : String) : a ++ "Query" ≠ b ++ "Mutation" :=
  Text.append_ne_append_of_suffix (by decide) (by decide)

/-- A factory is in the way of a namespace if it is called like it, or like one of its factories. -/
theorem collides_iff {factory : KeyFactory} (named : factory.IsNamed) (scope : String) :
    collides scope factory = true ↔
      factory.storeKey = scope ∨ factory.storeKey ∈ stems scope := by
  have hquery : factory.queryKeys = queryKeys scope ↔ factory.storeKey = scope ++ "Query" := by
    rw [named.queryKeys, queryKeys_eq, String.append_left_inj]
  have hmutation : factory.queryKeys = mutationKeys scope ↔
      factory.storeKey = scope ++ "Mutation" := by
    rw [named.queryKeys, mutationKeys_eq, String.append_left_inj]
  have hquery' : factory.mutationKeys ≠ queryKeys scope := by
    rw [named.mutationKeys]
    exact Text.append_ne_append_of_suffix (by decide) (by decide)
  have hmutation' : factory.mutationKeys = mutationKeys scope ↔ factory.storeKey = scope := by
    rw [named.mutationKeys, mutationKeys, String.append_left_inj]
  simp only [collides, Bool.or_eq_true, beq_iff_eq, List.contains_iff_mem, List.mem_cons,
    List.not_mem_nil, or_false, hquery, hmutation, hquery', hmutation', false_or, stems]
  constructor
  · rintro ((h | h) | h)
    · exact .inl h
    · exact .inr h
    · exact .inl h
  · rintro (h | h)
    · exact .inl (.inl h)
    · exact .inl (.inr h)

/-! The candidates are distinct, and no candidate is called like a factory of another one. -/

/-- A candidate for the scope of custom operations has none of two letters. -/
theorem not_mem_candidate {c : Char} (hc : c ∈ ['Q', 'M']) (n : Nat) :
    c ∉ (candidate n).toList := by
  have hwords : c ∉ "custom".toList ∧ c ∉ "customOperations".toList ∧ c.isDigit = false := by
    rw [List.mem_cons, List.mem_singleton] at hc
    rcases hc with rfl | rfl
    · decide
    · decide
  obtain ⟨hcustom, hoperations, hdigit⟩ := hwords
  match n with
  | 0 => exact hcustom
  | 1 => exact hoperations
  | n + 2 =>
    show c ∉ ("customOperations" ++ toString (n + 2)).toList
    rw [String.toList_append, List.mem_append, not_or, Nat.toString_eq_repr, Nat.toList_repr]
    refine ⟨hoperations, fun hmem => ?_⟩
    rw [Nat.isDigit_of_mem_toDigits (by decide) (by decide) hmem] at hdigit
    cases hdigit

/-- A candidate for the scope is never a name with one of the two endings. -/
theorem candidate_ne_append {ending : String} (h : ending ∈ ["Query", "Mutation"]) (n : Nat)
    (front : String) : candidate n ≠ front ++ ending := by
  obtain ⟨c, hc, hmem⟩ : ∃ c ∈ ['Q', 'M'], c ∈ ending.toList := by
    rw [List.mem_cons, List.mem_singleton] at h
    rcases h with rfl | rfl
    · exact ⟨'Q', by decide, by decide⟩
    · exact ⟨'M', by decide, by decide⟩
  intro heq
  refine not_mem_candidate hc n ?_
  rw [heq, String.toList_append]
  exact List.mem_append_right _ hmem

/-- No candidate comes up twice. -/
theorem candidate_injective : Function.Injective candidate := by
  have hnumbered (n : Nat) : candidate (n + 2) = "customOperations" ++ toString (n + 2) := rfl
  have hfirst (n : Nat) : candidate 0 ≠ candidate (n + 2) := by
    rw [hnumbered]
    exact (Text.append_ne_of_not_prefix (by decide)).symm
  have hsecond (n : Nat) : candidate 1 ≠ candidate (n + 2) := by
    rw [hnumbered]
    exact fun h => Nat.repr_ne_empty (String.append_eq_left_iff.1 h.symm)
  intro m n h
  match m, n with
  | 0, 0 | 1, 1 => rfl
  | 0, 1 | 1, 0 => exact absurd h (by decide)
  | 0, n + 2 => exact absurd h (hfirst n)
  | n + 2, 0 => exact absurd h.symm (hfirst n)
  | 1, n + 2 => exact absurd h (hsecond n)
  | n + 2, 1 => exact absurd h.symm (hsecond n)
  | m + 2, n + 2 =>
    rw [hnumbered, hnumbered, String.append_right_inj] at h
    have hdigits := congrArg String.toList h
    rw [Nat.toString_eq_repr, Nat.toString_eq_repr, Nat.toList_repr, Nat.toList_repr] at hdigits
    exact Literal.toDigits_injective hdigits

/-- A factory is in the way of at most one candidate. -/
theorem eq_of_collides {factory : KeyFactory} (named : factory.IsNamed) {m n : Nat}
    (hm : collides (candidate m) factory = true) (hn : collides (candidate n) factory = true) :
    m = n := by
  have hquery : "Query" ∈ ["Query", "Mutation"] := by decide
  have hmutation : "Mutation" ∈ ["Query", "Mutation"] := by decide
  rw [collides_iff named, stems, List.mem_cons, List.mem_singleton] at hm hn
  apply candidate_injective
  rcases hm with hm | hm | hm
  · rcases hn with hn | hn | hn
    · exact hm.symm.trans hn
    · exact absurd (hm.symm.trans hn) (candidate_ne_append hquery m _)
    · exact absurd (hm.symm.trans hn) (candidate_ne_append hmutation m _)
  · rcases hn with hn | hn | hn
    · exact absurd (hn.symm.trans hm) (candidate_ne_append hquery n _)
    · exact (String.append_left_inj _).1 (hm.symm.trans hn)
    · exact absurd (hm.symm.trans hn) (append_query_ne_append_mutation _ _)
  · rcases hn with hn | hn | hn
    · exact absurd (hn.symm.trans hm) (candidate_ne_append hmutation n _)
    · exact absurd (hn.symm.trans hm) (append_query_ne_append_mutation _ _)
    · exact (String.append_left_inj _).1 (hm.symm.trans hn)

/-- One of the first candidates is free: there is one more of them than there are factories. -/
theorem exists_isFree {factories : List KeyFactory}
    (named : ∀ factory ∈ factories, factory.IsNamed) :
    ∃ n < factories.length + 1, isFree factories (candidate n) = true := by
  by_contra! hnone
  -- Otherwise each candidate has a factory in its way, and no two have the same one.
  have hcollides : ∀ n ∈ List.range (factories.length + 1), ∃ factory ∈ factories,
      collides (candidate n) factory = true := by
    intro n hn
    have hn := hnone n (List.mem_range.1 hn)
    rwa [isFree, ne_eq, Bool.not_eq_true', Bool.not_eq_false, List.any_eq_true] at hn
  choose! taker hmem htaken using hcollides
  have hnodup : ((List.range (factories.length + 1)).map taker).Nodup := by
    refine List.nodup_range.map_on fun m hm n hn heq => ?_
    exact eq_of_collides (named _ (hmem n hn)) (heq ▸ htaken m hm) (htaken n hn)
  have hsubset : (List.range (factories.length + 1)).map taker ⊆ factories := by
    intro factory hfactory
    obtain ⟨n, hn, rfl⟩ := List.mem_map.1 hfactory
    exact hmem n hn
  have hlength := (List.subperm_of_subset hnodup hsubset).length_le
  rw [List.length_map, List.length_range] at hlength
  omega

/-- No factory is in the way of the namespace. -/
theorem isFree_choose {factories : List KeyFactory}
    (named : ∀ factory ∈ factories, factory.IsNamed) :
    isFree factories (choose factories) = true := by
  obtain ⟨n, hn, hfree⟩ := exists_isFree named
  rw [choose]
  cases hfind : ((List.range (factories.length + 1)).map candidate).find? (isFree factories) with
  | some scope => exact List.find?_some hfind
  | none =>
    rw [List.find?_eq_none] at hfind
    exact absurd hfree (hfind _ (List.mem_map_of_mem (List.mem_range.2 hn)))

end CustomScope

/-! ## The files of keys -/

namespace KeyStore

/-- The factories of query keys, by what their names have in front of `Keys`. -/
def queryStems (store : KeyStore) : List String :=
  store.factories.map (·.storeKey) ++
    (if store.customQueries.isEmpty then [] else [store.customScope ++ "Query"]) ++ ["query"]

/-- The factories of mutation keys, by what their names have in front of `Keys`. -/
def mutationStems (store : KeyStore) : List String :=
  store.factories.map (·.storeKey ++ "Mutation") ++
    (if store.customMutations.isEmpty then [] else [store.customScope ++ "Mutation"]) ++
    ["mutation"]

/-- The types of scopes. -/
def scopeTypes (store : KeyStore) : List String :=
  "QueryKeyScope" :: (store.factories.filter (·.keys.isScoped)).map (·.scopeType)

/-- The names that the files of keys export. `mutations` tells whether there is a file of mutation
keys. -/
def exportedNames (store : KeyStore) (mutations : Bool) : List String :=
  store.queryKeyItems.flatMap (·.exportedNames) ++
    if mutations then store.mutationKeyItems.flatMap (·.exportedNames) else []

variable {store : KeyStore} {mutations : Bool}

/-- A constant exports its name alone. -/
theorem exportedNames_constObject (name : String) (lines : List String) :
    (KeyFactory.constObject name lines).exportedNames = [name] := rfl

/-- The factories export their scope types and their keys. -/
theorem exportedNames_factories_perm {factories : List KeyFactory}
    (named : ∀ factory ∈ factories, factory.IsNamed) :
    List.Perm ((factories.flatMap (·.queryKeyItems)).flatMap (·.exportedNames))
      ((factories.filter (·.keys.isScoped)).map (·.scopeType) ++
        (factories.map (·.storeKey)).map (· ++ "Keys")) := by
  -- The type of the scopes of an entity stands before its factory.
  induction factories with
  | nil => exact .nil
  | cons factory rest ih =>
    rw [List.forall_mem_cons] at named
    have hkeys := named.1.queryKeys
    cases hscoped : factory.keys.isScoped with
    | true =>
      have hitems : factory.queryKeyItems.flatMap (·.exportedNames) =
          [factory.scopeType, factory.storeKey ++ "Keys"] := by
        rw [← hkeys, KeyFactory.queryKeyItems, hscoped]
        rfl
      rw [List.flatMap_cons, List.flatMap_append, hitems, List.filter_cons,
        if_pos hscoped]
      exact ((ih named.2).cons _).trans List.perm_middle.symm |>.cons _
    | false =>
      have hitems : factory.queryKeyItems.flatMap (·.exportedNames) =
          [factory.storeKey ++ "Keys"] := by
        rw [← hkeys, KeyFactory.queryKeyItems, hscoped]
        rfl
      rw [List.flatMap_cons, List.flatMap_append, hitems, List.filter_cons,
        if_neg (ne_true_of_eq_false hscoped)]
      exact ((ih named.2).cons _).trans List.perm_middle.symm

/-- The file of the query keys exports the scope types and one name for every stem. -/
theorem exportedNames_queryKeyItems_perm
    (named : ∀ factory ∈ store.factories, factory.IsNamed) :
    List.Perm (store.queryKeyItems.flatMap (·.exportedNames))
      (store.scopeTypes ++ store.queryStems.map (· ++ "Keys")) := by
  let custom := if store.customQueries.isEmpty then [] else [store.customScope ++ "Query"]
  have hitems : store.queryKeyItems.flatMap (·.exportedNames) =
      (store.factories.flatMap (·.queryKeyItems)).flatMap (·.exportedNames) ++
        custom.map (· ++ "Keys") ++ ["queryKeys"] ++ ["QueryKeyScope"] := by
    rw [queryKeyItems, List.flatMap_append, List.flatMap_append, List.append_assoc _ ["queryKeys"]]
    refine congrArg₂ _ (congrArg _ ?_) rfl
    show _ = List.map _ (if _ then _ else _)
    split
    · rfl
    · rw [customQueryKeys, CustomScope.queryKeys_eq]
      rfl
  rw [hitems]
  refine (List.perm_append_singleton _ _).trans ?_
  have hfactories := exportedNames_factories_perm named
  refine (((hfactories.append_right _).append_right _).cons _).trans (.of_eq ?_)
  simp [scopeTypes, queryStems, custom]

/-- The file of the mutation keys exports one name for every stem. -/
theorem exportedNames_mutationKeyItems (named : ∀ factory ∈ store.factories, factory.IsNamed) :
    store.mutationKeyItems.flatMap (·.exportedNames) =
      store.mutationStems.map (· ++ "Keys") := by
  have hfactories : (store.factories.map fun factory =>
      KeyFactory.constObject factory.mutationKeys factory.mutationKeyLines).flatMap
        (·.exportedNames) = (store.factories.map (·.storeKey ++ "Mutation")).map (· ++ "Keys") := by
    rw [List.flatMap_map, List.map_map, List.map_eq_flatMap]
    refine List.flatMap_congr fun factory hfactory => ?_
    rw [exportedNames_constObject, (named factory hfactory).mutationKeys]
    exact congrArg (fun name => [name]) (CustomScope.mutationKeys_eq factory.storeKey)
  rw [mutationKeyItems, mutationStems, List.flatMap_append, List.flatMap_append, hfactories,
    List.map_append, List.map_append]
  refine congrArg₂ _ (congrArg _ ?_) rfl
  split
  · rfl
  · rw [customMutationKeys, CustomScope.mutationKeys_eq]
    rfl

/-- The names of the factories are apart from each other: their entities have different names, which
are none of the words that are used for all entities. -/
structure Apart (store : KeyStore) (mutations : Bool) : Prop where
  storeKeys : (store.factories.map (·.storeKey)).Nodup
  query : ∀ factory ∈ store.factories, factory.storeKey ≠ "query"
  mutation : mutations = true → ∀ factory ∈ store.factories, factory.storeKey ≠ "mutation"
  mutationKeys : mutations = true → ∀ factory ∈ store.factories, ∀ other ∈ store.factories,
    factory.storeKey ≠ other.storeKey ++ "Mutation"
  scopeTypes : store.scopeTypes.Nodup

/-- The scope of custom operations keeps clear of all tables. -/
theorem storeKey_ne_customScope (named : ∀ factory ∈ store.factories, factory.IsNamed)
    {factory : KeyFactory} (h : factory ∈ store.factories) :
    factory.storeKey ≠ store.customScope ∧
      factory.storeKey ∉ CustomScope.stems store.customScope := by
  have hfree := CustomScope.isFree_choose named
  rw [CustomScope.isFree, Bool.not_eq_true', List.any_eq_false] at hfree
  rw [← not_or, ← CustomScope.collides_iff (named factory h)]
  exact hfree factory h

/-- A name for the custom operations that no entity has, and a word for all of them. -/
theorem nodup_append_custom_iff {keys : List String} {custom word : String} (isEmpty : Bool)
    (hcustom : custom ∉ keys) (hword : custom ≠ word) :
    (keys ++ (if isEmpty then [] else [custom]) ++ [word]).Nodup ↔ keys.Nodup ∧ word ∉ keys := by
  rw [List.nodup_append_comm, List.singleton_append, List.nodup_cons, and_comm]
  cases isEmpty with
  | true => rw [if_pos rfl, List.append_nil]
  | false =>
    rw [if_neg Bool.false_ne_true, List.mem_append, List.mem_singleton, not_or,
      List.nodup_append_comm, List.singleton_append, List.nodup_cons]
    exact ⟨fun h => ⟨h.1.2, h.2.1⟩, fun h => ⟨⟨hcustom, h.1⟩, h.2, hword.symm⟩⟩

/-- The stems of the query keys are distinct exactly if the tables have keys of their own and none
of them takes the name of the store. -/
theorem nodup_queryStems_iff (named : ∀ factory ∈ store.factories, factory.IsNamed) :
    store.queryStems.Nodup ↔
      (store.factories.map (·.storeKey)).Nodup ∧
        ∀ factory ∈ store.factories, factory.storeKey ≠ "query" := by
  rw [queryStems, nodup_append_custom_iff _ ?_ (Text.append_ne_of_not_suffix (by decide))]
  · simp
  · intro hmem
    obtain ⟨factory, hfactory, heq⟩ := List.mem_map.1 hmem
    exact (storeKey_ne_customScope named hfactory).2 (heq ▸ List.mem_cons_self)

/-- The stems of the mutation keys are distinct exactly if the tables have keys of their own. -/
theorem nodup_mutationStems_iff (named : ∀ factory ∈ store.factories, factory.IsNamed) :
    store.mutationStems.Nodup ↔ (store.factories.map (·.storeKey)).Nodup := by
  have hmap : store.factories.map (·.storeKey ++ "Mutation") =
      (store.factories.map (·.storeKey)).map (· ++ "Mutation") := by
    rw [List.map_map]
    rfl
  have hinjective : Function.Injective fun key : String => key ++ "Mutation" :=
    fun key key' h => (String.append_left_inj _).1 h
  have hword (key : String) : key ++ "Mutation" ≠ "mutation" :=
    Text.append_ne_of_not_suffix (by decide)
  rw [mutationStems, hmap, nodup_append_custom_iff _ ?_ (hword _), List.nodup_map_iff hinjective,
    and_iff_left]
  · intro hmem
    obtain ⟨key, -, heq⟩ := List.mem_map.1 hmem
    exact hword key heq
  · intro hmem
    obtain ⟨key, hkey, heq⟩ := List.mem_map.1 hmem
    obtain ⟨factory, hfactory, rfl⟩ := List.mem_map.1 hkey
    exact (storeKey_ne_customScope named hfactory).1 (hinjective heq)

/-- A factory of query keys belongs to an entity, or is called after queries. -/
theorem cases_of_mem_queryStems {stem : String} (h : stem ∈ store.queryStems) :
    (∃ factory ∈ store.factories, factory.storeKey = stem) ∨ ∃ front, stem = front ++ "uery" := by
  rw [queryStems, List.mem_append, List.mem_append, List.mem_map, List.mem_singleton] at h
  rcases h with (h | h) | rfl
  · exact .inl h
  · split at h
    · cases h
    · refine .inr ⟨store.customScope ++ "Q", ?_⟩
      rw [List.mem_singleton.1 h, String.append_assoc]
      rfl
  · exact .inr ⟨"q", rfl⟩

/-- All factories of mutation keys are called after mutations. -/
theorem cases_of_mem_mutationStems {stem : String} (h : stem ∈ store.mutationStems) :
    (∃ factory ∈ store.factories, stem = factory.storeKey ++ "Mutation") ∨
      stem = store.customScope ++ "Mutation" ∨ stem = "mutation" := by
  rw [mutationStems, List.mem_append, List.mem_append, List.mem_map, List.mem_singleton] at h
  rcases h with (⟨factory, hfactory, heq⟩ | h) | h
  · exact .inl ⟨factory, hfactory, heq.symm⟩
  · split at h
    · cases h
    · exact .inr (.inl (List.mem_singleton.1 h))
  · exact .inr (.inr h)

/-- The two files share no stem exactly if no table takes the name of the store of mutation keys, or
that of the mutation keys of a table. -/
theorem disjoint_stems_iff (named : ∀ factory ∈ store.factories, factory.IsNamed) :
    List.Disjoint store.queryStems store.mutationStems ↔
      (∀ factory ∈ store.factories, factory.storeKey ≠ "mutation") ∧
        ∀ factory ∈ store.factories, ∀ other ∈ store.factories,
          factory.storeKey ≠ other.storeKey ++ "Mutation" := by
  have hkey {factory : KeyFactory} (h : factory ∈ store.factories) :
      factory.storeKey ∈ store.queryStems :=
    List.mem_append_left _ (List.mem_append_left _ (List.mem_map_of_mem h))
  constructor
  · intro h
    refine ⟨fun factory hfactory heq => ?_, fun factory hfactory other hother heq => ?_⟩
    · exact h (hkey hfactory) (heq ▸ List.mem_append_right _ List.mem_cons_self)
    · refine h (hkey hfactory) (heq ▸ List.mem_append_left _ (List.mem_append_left _ ?_))
      exact List.mem_map.2 ⟨other, hother, rfl⟩
  · rintro ⟨hmutation, hkeys⟩ stem hquery hmem
    have hstem := cases_of_mem_mutationStems hmem
    -- A stem for queries is the key of a table, or ends unlike all stems for mutations.
    rcases cases_of_mem_queryStems hquery with ⟨factory, hfactory, rfl⟩ | ⟨front, rfl⟩
    · rcases hstem with ⟨other, hother, heq⟩ | heq | heq
      · exact hkeys factory hfactory other hother heq
      · refine (storeKey_ne_customScope named hfactory).2 ?_
        rw [heq]
        exact List.mem_cons_of_mem _ List.mem_cons_self
      · exact hmutation factory hfactory heq
    · have hmutation (a : String) : front ++ "uery" ≠ a ++ "Mutation" :=
        Text.append_ne_append_of_suffix (by decide) (by decide)
      rcases hstem with ⟨other, -, heq⟩ | heq | heq
      · exact hmutation _ heq
      · exact hmutation _ heq
      · exact Text.append_ne_of_not_suffix (by decide) heq

/-- All factories, by what their names have in front of `Keys`. -/
def stems (store : KeyStore) (mutations : Bool) : List String :=
  store.queryStems ++ if mutations then store.mutationStems else []

/-- A store exports its scope types and one name for every stem. -/
theorem exportedNames_perm (named : ∀ factory ∈ store.factories, factory.IsNamed) :
    List.Perm (store.exportedNames mutations)
      (store.scopeTypes ++ (store.stems mutations).map (· ++ "Keys")) := by
  have hmutations : (if mutations then store.mutationKeyItems.flatMap (·.exportedNames) else []) =
      (if mutations then store.mutationStems else []).map (· ++ "Keys") := by
    split
    · exact exportedNames_mutationKeyItems named
    · rfl
  rw [exportedNames, stems, List.map_append, ← List.append_assoc, hmutations]
  exact (exportedNames_queryKeyItems_perm named).append_right _

/-- The name of a scope type ends in a word of its own. -/
theorem exists_scopeType (named : ∀ factory ∈ store.factories, factory.IsNamed) {name : String}
    (h : name ∈ store.scopeTypes) : ∃ type, name = type ++ "Scope" := by
  rw [scopeTypes, List.mem_cons, List.mem_map] at h
  rcases h with rfl | ⟨factory, hfactory, rfl⟩
  · exact ⟨"QueryKey", rfl⟩
  · exact (named factory (List.mem_filter.1 hfactory).1).scopeType

/-- What the files of keys export has the ending of a factory or of the type of a scope. -/
theorem exists_ending (named : ∀ factory ∈ store.factories, factory.IsNamed) {name : String}
    (h : name ∈ store.exportedNames mutations) :
    ∃ front, ∃ ending ∈ ["Keys", "Scope"], name = front ++ ending := by
  rw [(exportedNames_perm named).mem_iff, List.mem_append, List.mem_map] at h
  rcases h with h | ⟨stem, -, rfl⟩
  · obtain ⟨type, rfl⟩ := exists_scopeType named h
    exact ⟨type, "Scope", by decide, rfl⟩
  · exact ⟨stem, "Keys", by decide, rfl⟩

/-- The names that the files of keys export are distinct exactly if they are apart. -/
theorem nodup_exportedNames_iff (named : ∀ factory ∈ store.factories, factory.IsNamed) :
    (store.exportedNames mutations).Nodup ↔ store.Apart mutations := by
  have hinjective : Function.Injective fun stem : String => stem ++ "Keys" :=
    fun stem stem' h => (String.append_left_inj _).1 h
  have hdisjoint : List.Disjoint store.scopeTypes ((store.stems mutations).map (· ++ "Keys")) := by
    intro name hscope hkeys
    obtain ⟨type, rfl⟩ := exists_scopeType named hscope
    obtain ⟨stem, -, heq⟩ := List.mem_map.1 hkeys
    exact Text.append_ne_append_of_suffix (by decide) (by decide) heq
  have hnodup : (store.exportedNames mutations).Nodup ↔
      store.scopeTypes.Nodup ∧ (store.stems mutations).Nodup := by
    rw [(exportedNames_perm named).nodup_iff, List.nodup_append', List.nodup_map_iff hinjective,
      and_iff_left hdisjoint]
  rw [hnodup]
  cases mutations with
  | false =>
    rw [stems, if_neg Bool.false_ne_true, List.append_nil, nodup_queryStems_iff named]
    constructor
    · rintro ⟨hscopes, hkeys, hquery⟩
      exact ⟨hkeys, hquery, nofun, nofun, hscopes⟩
    · intro h
      exact ⟨h.scopeTypes, h.storeKeys, h.query⟩
  | true =>
    rw [stems, if_pos rfl, List.nodup_append', nodup_queryStems_iff named,
      nodup_mutationStems_iff named, disjoint_stems_iff named]
    constructor
    · rintro ⟨hscopes, ⟨hkeys, hquery⟩, -, hmutation, hmutationKeys⟩
      exact ⟨hkeys, hquery, fun _ => hmutation, fun _ => hmutationKeys, hscopes⟩
    · intro h
      exact ⟨h.scopeTypes, ⟨h.storeKeys, h.query⟩, h.storeKeys, h.mutation rfl, h.mutationKeys rfl⟩

end KeyStore

end GraphClient
