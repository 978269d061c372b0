import GraphClient.CacheKey.EntityKeys
import GraphClient.Proofs.CacheKey.Ancestry
import Mathlib.Data.List.Forall2

/-!
# The hierarchy of cache keys

The keys of an entity lie in layers. All of them begin with the entity; below it stands the id of
the nearest ancestor that the scope holds one of, and below that the lists and the single rows, each
under a text of its own. So a key that begins others stands for whole layers, and lists and rows
never share a key.

* `EntityKeys.HoldsId` : a scope holds an id of an ancestor.
* `EntityKeys.forScope_eq_within`, `EntityKeys.forScope_eq_all` : the key of a scope.
* `EntityKeys.all_isPrefix_forScope`, `EntityKeys.forScope_isPrefix_list` and the like : the layers.
* `EntityKeys.Hierarchy` : the layers of the keys of an entity.
-/

namespace GraphClient

namespace EntityKeys

variable {keys : EntityKeys} {scope scope' : Entries Json}

/-! ## Scopes -/

/-- A scope holds an id of an ancestor: under the foreign key stands a value other than null. -/
def HoldsId (scope : Entries Json) (ancestor : Ancestor) (id : Json) : Prop :=
  Entries.find? scope ancestor.foreignKey = some id ∧ id ≠ .null

/-- An id is found in a scope exactly if the scope holds it. -/
theorem idIn?_eq_some_iff {ancestor : Ancestor} {id : Json} :
    idIn? scope ancestor = some id ↔ HoldsId scope ancestor id := by
  unfold idIn? HoldsId
  split
  · next hnone => simp [hnone]
  · next hnull =>
    simp only [hnull, reduceCtorEq, Option.some.injEq, false_iff, not_and, not_not]
    exact Eq.symm
  · next found hne hfound =>
    simp only [hfound, Option.some.injEq]
    constructor
    · rintro rfl
      exact ⟨rfl, hne⟩
    · exact And.left

/-- No id is found in a scope exactly if it holds none, or none but null. -/
theorem idIn?_eq_none_iff {ancestor : Ancestor} :
    idIn? scope ancestor = none ↔ ∀ id, ¬ HoldsId scope ancestor id := by
  rw [Option.eq_none_iff_forall_ne_some]
  exact forall_congr' fun id => not_congr idIn?_eq_some_iff

/-- The nearest ancestor that the scope holds an id of decides about the key. -/
theorem forScope_eq_within {nearer further : List Ancestor} {ancestor : Ancestor} {id : Json}
    (hsplit : keys.ancestors = nearer ++ ancestor :: further)
    (hnearer : ∀ other ∈ nearer, ∀ id, ¬ HoldsId scope other id)
    (hid : HoldsId scope ancestor id) : keys.forScope scope = keys.within ancestor id := by
  have hfound : (keys.ancestors.findSome? fun ancestor =>
      (idIn? scope ancestor).map (keys.within ancestor)) = some (keys.within ancestor id) := by
    refine List.findSome?_eq_some_iff.2 ⟨nearer, ancestor, further, hsplit, ?_, ?_⟩
    · rw [idIn?_eq_some_iff.2 hid, Option.map_some]
    · intro other hother
      rw [idIn?_eq_none_iff.2 (hnearer other hother), Option.map_none]
  rw [forScope, hfound, Option.getD_some]

/-- Without an id of an ancestor the key is that of the entity. -/
theorem forScope_eq_all (h : ∀ ancestor ∈ keys.ancestors, ∀ id, ¬ HoldsId scope ancestor id) :
    keys.forScope scope = keys.all := by
  have hnone : (keys.ancestors.findSome? fun ancestor =>
      (idIn? scope ancestor).map (keys.within ancestor)) = none := by
    refine List.findSome?_eq_none_iff.2 fun ancestor hmem => ?_
    rw [idIn?_eq_none_iff.2 (h ancestor hmem), Option.map_none]
  rw [forScope, hnone, Option.getD_none]

/-- Only the fields of a scope that are foreign keys of ancestors count. -/
theorem forScope_congr (h : ∀ ancestor ∈ keys.ancestors,
    Entries.find? scope ancestor.foreignKey = Entries.find? scope' ancestor.foreignKey) :
    keys.forScope scope = keys.forScope scope' := by
  have hsame : ∀ ancestor ∈ keys.ancestors, (idIn? scope ancestor).map (keys.within ancestor) =
      (idIn? scope' ancestor).map (keys.within ancestor) := by
    intro ancestor hmem
    rw [idIn?, idIn?, h ancestor hmem]
  rw [forScope, forScope, ← List.head?_filterMap, ← List.head?_filterMap,
    List.filterMap_congr hsame]

/-- If no entity occurs twice among the ancestors, every ancestor is found by its entity. -/
theorem byAncestor?_of_nodup {nearer further : List Ancestor} {ancestor : Ancestor}
    (nodup : (keys.ancestors.map (·.entity)).Nodup)
    (hsplit : keys.ancestors = nearer ++ ancestor :: further) (id : Json) :
    keys.byAncestor? ancestor.entity id = some (keys.within ancestor id) := by
  have hfound : keys.ancestors.find? (·.entity == ancestor.entity) = some ancestor := by
    refine List.find?_eq_some_iff_append.2 ⟨beq_self_eq_true _, nearer, further, hsplit, ?_⟩
    intro other hother
    rw [hsplit, List.map_append, List.map_cons, List.nodup_append] at nodup
    have hne : other.entity ≠ ancestor.entity :=
      nodup.2.2 _ (List.mem_map_of_mem hother) _ List.mem_cons_self
    simp [hne]
  rw [byAncestor?, hfound, Option.map_some]

/-! ## Layers -/

/-- Within a scope, the keys of an entity begin with the entity. -/
theorem all_isPrefix_forScope (keys : EntityKeys) (scope : Entries Json) :
    keys.all <+: keys.forScope scope := by
  rw [forScope]
  cases hfound : keys.ancestors.findSome? fun ancestor =>
      (idIn? scope ancestor).map (keys.within ancestor) with
  | none => exact List.prefix_refl _
  | some key =>
    obtain ⟨ancestor, -, hid⟩ := List.exists_of_findSome?_eq_some hfound
    obtain ⟨id, -, rfl⟩ := Option.map_eq_some_iff.1 hid
    exact ⟨[.object [(ancestor.foreignKey, id)]], rfl⟩

/-- Without ancestors a scope makes no difference. -/
theorem forScope_of_not_isScoped (keys : EntityKeys) (scope : Entries Json)
    (h : keys.isScoped = false) : keys.forScope scope = keys.all := by
  have hnone : keys.ancestors = [] := by simpa [isScoped] using h
  exact forScope_eq_all fun ancestor hmem => absurd hmem (by simp [hnone])

/-- The key of a scope begins that of its lists. -/
theorem forScope_isPrefix_lists (keys : EntityKeys) (scope : Entries Json) :
    keys.forScope scope <+: keys.lists scope := List.prefix_append _ _

/-- The key of a scope begins that of each of its lists. -/
theorem forScope_isPrefix_list (keys : EntityKeys) (scope : Entries Json) (given : Json) :
    keys.forScope scope <+: keys.list scope given :=
  (keys.forScope_isPrefix_lists scope).trans (List.prefix_append _ _)

/-- The key of a scope begins that of its rows. -/
theorem forScope_isPrefix_details (keys : EntityKeys) (scope : Entries Json) :
    keys.forScope scope <+: keys.details scope := List.prefix_append _ _

/-- The key of a scope begins that of each of its rows. -/
theorem forScope_isPrefix_detail (keys : EntityKeys) (scope : Entries Json) (id : Json) :
    keys.forScope scope <+: keys.detail scope id :=
  (keys.forScope_isPrefix_details scope).trans (List.prefix_append _ _)

end EntityKeys

/-- Two keys are the same place by place, where `same` tells when two values are. -/
def CacheKey.Same (same : Json → Json → Prop) : CacheKey → CacheKey → Prop := List.Forall₂ same

namespace CacheKey.Same

variable {same : Json → Json → Prop}

/-- Where values are compared by equality, so are keys. -/
theorem eq_iff {key key' : CacheKey} : CacheKey.Same (· = ·) key key' ↔ key = key' := by
  rw [CacheKey.Same, List.forall₂_eq_eq_eq]

/-- Keys are compared from the end as well as from the beginning. -/
theorem of_concat {key key' : CacheKey} {last last' : Json}
    (h : CacheKey.Same same (key ++ [last]) (key' ++ [last'])) :
    CacheKey.Same same key key' ∧ same last last' := by
  have hreverse := List.forall₂_reverse_iff.2 h
  rw [List.reverse_append, List.reverse_append] at hreverse
  obtain ⟨hlast, hrest⟩ := List.forall₂_cons.1 hreverse
  exact ⟨List.forall₂_reverse_iff.1 hrest, hlast⟩

end CacheKey.Same

namespace EntityKeys

/-- How the keys of an entity lie in layers, where `same` tells when two values are the same. -/
structure Hierarchy (keys : EntityKeys) (same : Json → Json → Prop) : Prop where
  /-- The key of a scope is that of the nearest ancestor that the scope holds an id of. -/
  byAncestor?_eq : ∀ scope nearer ancestor further id,
    keys.ancestors = nearer ++ ancestor :: further →
    (∀ other ∈ nearer, ∀ id, ¬ HoldsId scope other id) → HoldsId scope ancestor id →
    keys.byAncestor? ancestor.entity id = some (keys.forScope scope)
  /-- If the scope holds no id, its key is that of the entity. -/
  forScope_eq_all : ∀ scope, (∀ ancestor ∈ keys.ancestors, ∀ id, ¬ HoldsId scope ancestor id) →
    keys.forScope scope = keys.all
  /-- Other fields of a scope than the foreign keys of the ancestors do not matter. -/
  forScope_congr : ∀ scope scope', (∀ ancestor ∈ keys.ancestors,
      Entries.find? scope ancestor.foreignKey = Entries.find? scope' ancestor.foreignKey) →
    keys.forScope scope = keys.forScope scope' ∧ keys.lists scope = keys.lists scope' ∧
      (∀ given, keys.list scope given = keys.list scope' given) ∧
      keys.details scope = keys.details scope' ∧
      ∀ id, keys.detail scope id = keys.detail scope' id
  /-- The key of the entity begins that of a scope, and that begins all keys within the scope. -/
  layers : ∀ scope, keys.all <+: keys.forScope scope ∧ keys.forScope scope <+: keys.lists scope ∧
    (∀ given, keys.forScope scope <+: keys.list scope given) ∧
    keys.forScope scope <+: keys.details scope ∧
    ∀ id, keys.forScope scope <+: keys.detail scope id
  /-- The key of a list tells its variables and the key of its scope. -/
  list_inj : ∀ scope scope' given given',
    CacheKey.Same same (keys.list scope given) (keys.list scope' given') →
    same given given' ∧ CacheKey.Same same (keys.forScope scope) (keys.forScope scope')
  /-- The key of a row tells its id and the key of its scope. -/
  detail_inj : ∀ scope scope' id id',
    CacheKey.Same same (keys.detail scope id) (keys.detail scope' id') →
    same id id' ∧ CacheKey.Same same (keys.forScope scope) (keys.forScope scope')
  /-- No list has the key of a row. -/
  list_not_detail : ∀ scope scope' given id,
    ¬ CacheKey.Same same (keys.list scope given) (keys.detail scope' id)

/-- The keys of an entity lie in layers if none of its ancestors occurs twice. Nothing is asked of
the comparison of values, except that it tells texts apart. -/
theorem hierarchy_of_nodup {keys : EntityKeys} (nodup : (keys.ancestors.map (·.entity)).Nodup)
    {same : Json → Json → Prop} (texts : ∀ a b, same (.string a) (.string b) → a = b) :
    keys.Hierarchy same where
  byAncestor?_eq scope nearer ancestor further id hsplit hnearer hid := by
    rw [forScope_eq_within hsplit hnearer hid]
    exact byAncestor?_of_nodup nodup hsplit id
  forScope_eq_all _ h := EntityKeys.forScope_eq_all h
  forScope_congr scope scope' h := by
    have hsame : keys.forScope scope = keys.forScope scope' := EntityKeys.forScope_congr h
    have hlists : keys.lists scope = keys.lists scope' := by rw [lists, lists, hsame]
    have hdetails : keys.details scope = keys.details scope' := by rw [details, details, hsame]
    exact ⟨hsame, hlists, fun given => by rw [list, list, hlists], hdetails,
      fun id => by rw [detail, detail, hdetails]⟩
  layers scope := ⟨keys.all_isPrefix_forScope scope, keys.forScope_isPrefix_lists scope,
    keys.forScope_isPrefix_list scope, keys.forScope_isPrefix_details scope,
    keys.forScope_isPrefix_detail scope⟩
  list_inj scope scope' given given' h := by
    obtain ⟨hlists, hgiven⟩ := CacheKey.Same.of_concat h
    exact ⟨hgiven, (CacheKey.Same.of_concat hlists).1⟩
  detail_inj scope scope' id id' h := by
    obtain ⟨hdetails, hid⟩ := CacheKey.Same.of_concat h
    exact ⟨hid, (CacheKey.Same.of_concat hdetails).1⟩
  list_not_detail scope scope' given id h := by
    -- The texts before the last place differ.
    obtain ⟨hlayers, -⟩ := CacheKey.Same.of_concat h
    have heq := texts _ _ (CacheKey.Same.of_concat hlayers).2
    exact absurd heq (by decide)

/-- The keys of an entity, for any map of parents. Unless its ancestors are listed explicitly, none
of them occurs twice; and if none does, the keys lie in layers. Values may be compared by equality,
or by any other relation that tells texts apart, such as one for which the order of the fields of an
object does not matter. -/
theorem of_hierarchy (parents : Keyed Parentage) (entity : String) :
    ((parents.find? entity).bind (·.ancestors) = none →
      ((of parents entity).ancestors.map (·.entity)).Nodup) ∧
    (((of parents entity).ancestors.map (·.entity)).Nodup →
      ∀ same : Json → Json → Prop, (∀ a b, same (.string a) (.string b) → a = b) →
        (of parents entity).Hierarchy same) :=
  ⟨fun h => (Ancestry.climb_of h).nodup, fun nodup _ texts => hierarchy_of_nodup nodup texts⟩

end EntityKeys

namespace Sample

/-- A scope with a user. The post is null, and pages are nothing that a comment belongs to. -/
def userScope : Entries Json := [("page", .int 2), ("postId", .null), ("userId", .string "u1")]

/-- The comments of a user stand below those of the entity, whatever else is in the scope. -/
theorem comments_hierarchy :
    ((EntityKeys.of threads "comment").ancestors.map (·.entity)).Nodup ∧
      (EntityKeys.of threads "comment").byAncestor? "user" (.string "u1") =
        some ((EntityKeys.of threads "comment").forScope userScope) ∧
      (EntityKeys.of threads "comment").forScope [("page", .int 2)] =
        (EntityKeys.of threads "comment").all ∧
      (EntityKeys.of threads "comment").forScope userScope =
        (EntityKeys.of threads "comment").forScope [("postId", .null), ("userId", .string "u1")] ∧
      (∀ given given', (EntityKeys.of threads "comment").list userScope given =
        (EntityKeys.of threads "comment").list userScope given' → given = given') ∧
      ∀ given id, (EntityKeys.of threads "comment").list userScope given ≠
        (EntityKeys.of threads "comment").detail [] id := by
  obtain ⟨hnodup, hlayers⟩ := EntityKeys.of_hierarchy threads "comment"
  have nodup := hnodup rfl
  have hierarchy := hlayers nodup (· = ·) fun a b heq => Json.string.inj heq
  have hnoPost : ∀ id, ¬ EntityKeys.HoldsId userScope ⟨"post", "postId"⟩ id := by
    rintro id ⟨hfind, hne⟩
    exact hne (Option.some.inj hfind).symm
  have huser : EntityKeys.HoldsId userScope ⟨"user", "userId"⟩ (.string "u1") := by
    refine ⟨rfl, ?_⟩
    rintro ⟨⟩
  refine ⟨nodup, ?_, ?_, ?_, fun given given' h => ?_, fun given id h => ?_⟩
  · exact hierarchy.byAncestor?_eq userScope [⟨"post", "postId"⟩] ⟨"user", "userId"⟩ []
      (.string "u1") rfl (List.forall_mem_singleton.2 hnoPost) huser
  · refine hierarchy.forScope_eq_all [("page", .int 2)] (List.forall_mem_cons.2
      ⟨?_, List.forall_mem_singleton.2 ?_⟩)
    · rintro id ⟨⟨⟩, -⟩
    · rintro id ⟨⟨⟩, -⟩
  · exact (hierarchy.forScope_congr userScope [("postId", .null), ("userId", .string "u1")]
      (List.forall_mem_cons.2 ⟨rfl, List.forall_mem_singleton.2 rfl⟩)).1
  · exact (hierarchy.list_inj _ _ _ _ (CacheKey.Same.eq_iff.2 h)).1
  · exact hierarchy.list_not_detail _ _ _ _ (CacheKey.Same.eq_iff.2 h)

end Sample

end GraphClient
