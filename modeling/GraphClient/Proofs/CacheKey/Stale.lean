import GraphClient.CacheKey.Expression
import GraphClient.Proofs.CacheKey.Hierarchy
import GraphClient.Proofs.Json.Compact

/-!
# Stale keys

A mutation hook invalidates some keys, and whatever is stored under a key that one of them begins is
stale. For an entity with ancestors that is everything of the entity. For the other ones it is all
lists, and the row whose id is the same for the mutation and for the query that stored it.

* `KeyExpr.MakesStale` : what is stored under a key is made stale.
* `KeyExpr.makesStale_list`, `KeyExpr.makesStale_detail_iff` : when that is so for lists and rows.
* `RowId.value_insert_of_isSingle`, `RowId.value_insert_ne`, `RowId.exists_value_insert_ne` : what
  becomes of the id of a row if there is one more variable.
-/

namespace GraphClient

namespace KeyExpr

/-- What is stored under a key is made stale by a mutation: one of the keys that its hook
invalidates, read on the variables of the mutation, begins that key. -/
def MakesStale (keys : EntityKeys) (style : KeyStyle) (invalidated : List KeyExpr)
    (given : Entries Json) (stored : CacheKey) : Prop :=
  ∃ expr ∈ invalidated, expr.value keys style given [] <+: stored

variable (keys : EntityKeys) (style : KeyStyle) (given given' scope : Entries Json)

theorem all_isPrefix_value (expr : KeyExpr) : keys.all <+: expr.value keys style given scope := by
  cases expr with
  | all => exact List.prefix_refl _
  | lists => exact (keys.all_isPrefix_forScope _).trans (keys.forScope_isPrefix_lists _)
  | list => exact (keys.all_isPrefix_forScope _).trans (keys.forScope_isPrefix_list _ _)
  | detail id => exact (keys.all_isPrefix_forScope _).trans (keys.forScope_isPrefix_detail _ _)

/-- A mutation of an entity with ancestors makes everything of the entity stale. -/
theorem makesStale_of_isScoped (h : keys.isScoped = true) (row : Option RowId) (expr : KeyExpr) :
    MakesStale keys style (invalidated keys row) given' (expr.value keys style given scope) := by
  refine ⟨.all, ?_, all_isPrefix_value keys style given scope expr⟩
  rw [invalidated, if_pos h]
  exact List.mem_singleton_self _

/-- Every mutation makes all lists stale. -/
theorem makesStale_list (row : Option RowId) :
    MakesStale keys style (invalidated keys row) given'
      (KeyExpr.list.value keys style given scope) := by
  by_cases h : keys.isScoped = true
  · exact makesStale_of_isScoped keys style given given' scope h row .list
  · -- Without ancestors no scope counts, and the keys of all lists begin alike.
    rw [Bool.not_eq_true] at h
    refine ⟨.lists, ?_, ?_⟩
    · rw [invalidated, if_neg (by simp [h])]
      exact List.mem_cons_self
    · show keys.lists [] <+: keys.lists _ ++ [.object given]
      rw [EntityKeys.lists, EntityKeys.lists, keys.forScope_of_not_isScoped _ h,
        keys.forScope_of_not_isScoped _ h]
      exact List.prefix_append _ _

/-- A mutation of an entity without ancestors makes a row stale if it reads the same id off its
variables as the query did that stored the row. -/
theorem makesStale_detail_iff (h : keys.isScoped = false) (id : RowId) :
    MakesStale keys style (invalidated keys (some id)) given'
        ((KeyExpr.detail id).value keys style given scope) ↔
      id.value given' = id.value given := by
  have hdetail : ∀ given scope, (KeyExpr.detail id).value keys style given scope =
      [.string keys.entity, .string "detail", id.value given] := by
    intro given scope
    show keys.forScope _ ++ [Json.string "detail"] ++ [id.value given] = _
    rw [keys.forScope_of_not_isScoped _ h]
    rfl
  have hlists : KeyExpr.lists.value keys style given' [] =
      [.string keys.entity, .string "list"] := by
    show keys.forScope [] ++ [Json.string "list"] = _
    rw [keys.forScope_of_not_isScoped _ h]
    rfl
  have hinvalidated : invalidated keys (some id) = [.lists, .detail id] := by
    rw [invalidated, if_neg (by simp [h])]
    rfl
  rw [MakesStale, hinvalidated, hdetail]
  constructor
  · rintro ⟨expr, hexpr, hprefix⟩
    simp only [List.mem_cons, List.not_mem_nil, or_false] at hexpr
    rcases hexpr with rfl | rfl
    · -- The keys of lists and of rows part at their second place.
      rw [hlists] at hprefix
      simp at hprefix
    · rw [hdetail] at hprefix
      simpa using hprefix
  · intro heq
    refine ⟨.detail id, List.mem_cons_of_mem _ (List.mem_singleton_self _), ?_⟩
    rw [hdetail]
    exact heq ▸ List.prefix_refl _

end KeyExpr

/-! ## One more variable -/

namespace Entries

/-- A new key goes to the end. -/
theorem insert_of_not_mem {α : Type} {entries : Entries α} {key : String} (value : α)
    (h : key ∉ entries.keys) : entries.insert key value = entries ++ [(key, value)] := by
  induction entries with
  | nil => rfl
  | cons p rest ih =>
    obtain ⟨k, v⟩ := p
    rw [keys_cons, List.mem_cons, not_or] at h
    rw [insert, if_neg (Ne.symm h.1), ih h.2]
    rfl

end Entries

namespace RowId

variable {table : Table} (given : Entries Json) {name : String}

/-- A variable that is no key column does not change the id that is read off the only key column. -/
theorem value_insert_of_isSingle (single : table.primaryKey.isSingle = true)
    (hname : name ≠ table.primaryKey.first.name) (value : Json) :
    (ofTable table).value (given.insert name value) = (ofTable table).value given := by
  have hid : ofTable table = .field table.primaryKey.first.name := if_pos single
  rw [hid, RowId.value, RowId.value, Entries.find?_insert, if_neg hname]

/-- Where the id is the text of all variables, a new variable changes it. -/
theorem value_insert_ne (composite : table.primaryKey.isSingle = false)
    (hname : name ∉ given.keys) (value : Json) :
    (ofTable table).value (given.insert name value) ≠ (ofTable table).value given := by
  have hid : ofTable table = .combined := if_neg (by simp [composite])
  have hlength := Json.length_lt_append given name value
  rw [hid, RowId.value, RowId.value, Entries.insert_of_not_mem value hname]
  intro heq
  rw [Json.string.inj heq] at hlength
  exact Nat.lt_irrefl _ hlength

/-- A variable that the id is read off can be given so that the id changes. -/
theorem exists_value_insert_ne
    (h : table.primaryKey.isSingle = true → name = table.primaryKey.first.name) :
    ∃ value, (ofTable table).value (given.insert name value) ≠ (ofTable table).value given := by
  by_cases single : table.primaryKey.isSingle = true
  · -- The id is the variable itself, which is null or is not.
    obtain rfl := h single
    have hid : ofTable table = .field table.primaryKey.first.name := if_pos single
    have hvalue : ∀ value, (ofTable table).value (given.insert table.primaryKey.first.name value) =
        value := by
      intro value
      rw [hid, RowId.value, Entries.find?_insert, if_pos rfl]
      rfl
    by_cases hnull : (ofTable table).value given = .null
    · refine ⟨.bool true, ?_⟩
      rw [hvalue, hnull]
      intro heq
      cases heq
    · refine ⟨.null, ?_⟩
      rw [hvalue]
      exact Ne.symm hnull
  · -- The id is the text of all variables. Its old text does not fit into itself.
    have hid : ofTable table = .combined := if_neg single
    refine ⟨.string (Json.object given).compact, ?_⟩
    have hmem : (name, Json.string (Json.object given).compact) ∈
        given.insert name (.string (Json.object given).compact) := by
      apply Entries.mem_of_find?
      rw [Entries.find?_insert, if_pos rfl]
    have hquoted := Json.length_lt_string (Json.object given).compact
    have hinside := Json.length_lt_of_mem hmem
    rw [hid, RowId.value, RowId.value]
    intro heq
    rw [Json.string.inj heq] at hinside
    omega

end RowId

end GraphClient
