/-!
# Keyed lists

Finite maps with `String` keys that remember the order in which their keys first appeared. Writing
to a key that is present keeps its place and replaces its value, so a map read from a text keeps the
order of the text.

The operations are defined on lists of pairs (`Entries`), which may stand inside a recursive type;
`Keyed` adds the fact that keys are pairwise distinct, which every operation keeps.
-/

namespace GraphClient

/-- Pairs of a key and a value, looked up by the first pair with the key. -/
abbrev Entries (α : Type) := List (String × α)

namespace Entries

variable {α β : Type}

/-- The value of the first pair whose key is `key`. -/
def find? : Entries α → String → Option α
  | [], _ => none
  | (k, v) :: rest, key => if k = key then some v else find? rest key

/-- The keys in order. -/
def keys (entries : Entries α) : List String := entries.map Prod.fst

/-- Replaces the value of the first pair with the key, or appends a new pair. -/
def insert : Entries α → String → α → Entries α
  | [], key, value => [(key, value)]
  | (k, v) :: rest, key, value =>
    if k = key then (k, value) :: rest else (k, v) :: insert rest key value

/-- Inserts the pairs from left to right: a repeated key keeps its first place and last value. -/
def ofList (pairs : List (String × α)) : Entries α :=
  pairs.foldl (fun entries p => entries.insert p.1 p.2) []

@[simp] theorem keys_nil : keys ([] : Entries α) = [] := rfl

@[simp] theorem keys_cons (p : String × α) (entries : Entries α) :
    keys (p :: entries) = p.1 :: keys entries := rfl

@[simp] theorem find?_nil (key : String) : find? ([] : Entries α) key = none := rfl

/-- Nothing is found exactly under the keys that are not there. -/
theorem find?_eq_none_iff {entries : Entries α} {key : String} :
    entries.find? key = none ↔ key ∉ entries.keys := by
  induction entries with
  | nil => simp
  | cons p rest ih =>
    obtain ⟨k, v⟩ := p
    by_cases h : k = key
    · simp [find?, h]
    · simp [find?, h, ih, Ne.symm h]

/-- Something is found exactly under the keys that are there. -/
theorem find?_isSome_iff {entries : Entries α} {key : String} :
    (entries.find? key).isSome ↔ key ∈ entries.keys := by
  rw [← Decidable.not_iff_not, ← find?_eq_none_iff]
  cases entries.find? key <;> simp

/-- What is found under a key is stored with it. -/
theorem mem_of_find? {entries : Entries α} {key : String} {value : α}
    (h : entries.find? key = some value) : (key, value) ∈ entries := by
  induction entries with
  | nil => simp at h
  | cons p rest ih =>
    obtain ⟨k, v⟩ := p
    by_cases hk : k = key
    · simp only [find?, hk, if_true, Option.some.injEq] at h
      simp [hk, h]
    · simp only [find?, hk, if_false] at h
      exact List.mem_cons_of_mem _ (ih h)

/-- Where keys are distinct, every pair is found by its key. -/
theorem find?_of_mem {entries : Entries α} (nodup : entries.keys.Nodup) {key : String} {value : α}
    (h : (key, value) ∈ entries) : entries.find? key = some value := by
  induction entries with
  | nil => simp at h
  | cons p rest ih =>
    obtain ⟨k, v⟩ := p
    rw [keys_cons, List.nodup_cons] at nodup
    rcases List.mem_cons.1 h with heq | h
    · obtain ⟨rfl, rfl⟩ : key = k ∧ value = v := by simpa using heq
      simp [find?]
    · have hne : k ≠ key := by
        rintro rfl
        exact nodup.1 (List.mem_map.2 ⟨(k, value), h, rfl⟩)
      simp [find?, hne, ih nodup.2 h]

/-- What was inserted last under a key is found there, and nothing else changes. -/
theorem find?_insert (entries : Entries α) (key : String) (value : α) (key' : String) :
    (entries.insert key value).find? key' =
      if key = key' then some value else entries.find? key' := by
  induction entries with
  | nil => by_cases h : key = key' <;> simp [insert, find?, h]
  | cons p rest ih =>
    obtain ⟨k, v⟩ := p
    by_cases hk : k = key
    · subst hk
      by_cases h : k = key' <;> simp [insert, find?, h]
    · by_cases h : k = key'
      · subst h
        simp [insert, find?, hk, Ne.symm hk]
      · simp [insert, find?, hk, h, ih]

/-- An insertion appends the key unless it is present. -/
theorem keys_insert (entries : Entries α) (key : String) (value : α) :
    (entries.insert key value).keys =
      if key ∈ entries.keys then entries.keys else entries.keys ++ [key] := by
  induction entries with
  | nil => simp [insert]
  | cons p rest ih =>
    obtain ⟨k, v⟩ := p
    by_cases hk : k = key
    · simp [insert, hk]
    · by_cases h : key ∈ keys rest <;> simp [insert, hk, Ne.symm hk, ih, h]

/-- No key is stored twice. -/
theorem nodup_keys_insert {entries : Entries α} (h : entries.keys.Nodup) (key : String)
    (value : α) : (entries.insert key value).keys.Nodup := by
  rw [keys_insert]
  split
  · exact h
  · next hk =>
    rw [List.nodup_append]
    refine ⟨h, by simp, ?_⟩
    intro a ha b hb hab
    simp only [List.mem_singleton] at hb
    exact hk (by rw [← hb, ← hab]; exact ha)

/-- No key is stored twice, however many values are inserted. -/
theorem nodup_keys_foldl (pairs : List (String × α)) :
    ∀ entries : Entries α, entries.keys.Nodup →
      (pairs.foldl (fun entries p => entries.insert p.1 p.2) entries).keys.Nodup := by
  induction pairs with
  | nil => intro entries h; exact h
  | cons p rest ih => intro entries h; exact ih _ (nodup_keys_insert h _ _)

/-- Of pairs with one key only one is stored. -/
theorem nodup_keys_ofList (pairs : List (String × α)) : (ofList pairs).keys.Nodup :=
  nodup_keys_foldl pairs [] (by simp)

/-- The keys of all that is inserted are there, beside those that were. -/
theorem mem_keys_foldl (pairs : List (String × α)) (key : String) :
    ∀ entries : Entries α,
      key ∈ (pairs.foldl (fun entries p => entries.insert p.1 p.2) entries).keys ↔
        key ∈ entries.keys ∨ key ∈ keys pairs := by
  induction pairs with
  | nil => simp
  | cons p rest ih =>
    intro entries
    rw [List.foldl_cons, ih, keys_insert, keys_cons, List.mem_cons]
    split
    · next hp =>
      constructor
      · rintro (h | h) <;> simp [h]
      · rintro (h | rfl | h) <;> simp [*]
    · rw [List.mem_append, List.mem_singleton, or_assoc]

/-- What is found in the first list counts before the second one. -/
theorem find?_append (entries others : Entries α) (key : String) :
    find? (entries ++ others) key = (entries.find? key).or (find? others key) := by
  induction entries with
  | nil => rfl
  | cons p rest ih =>
    obtain ⟨k, v⟩ := p
    by_cases h : k = key
    · simp [find?, h]
    · simp [find?, h, ih]

/-- In a list that is made from items, the first item of a name is found. -/
theorem find?_map {ι : Type} (items : List ι) (name : ι → String) (value : ι → α) (key : String) :
    find? (items.map fun item => (name item, value item)) key =
      (items.find? (name · == key)).map value := by
  induction items with
  | nil => rfl
  | cons item rest ih =>
    by_cases h : name item = key
    · simp [find?, h]
    · simp [find?, h, ih]

/-- After many inserts the last one under a key counts, before what was there. -/
theorem find?_foldl (pairs : List (String × α)) (key : String) :
    ∀ entries : Entries α,
      find? (pairs.foldl (fun entries p => entries.insert p.1 p.2) entries) key =
        (find? pairs.reverse key).or (entries.find? key) := by
  induction pairs with
  | nil => exact fun _ => rfl
  | cons p rest ih =>
    intro entries
    rw [List.foldl_cons, ih, find?_insert, List.reverse_cons, find?_append, Option.or_assoc]
    congr 1
    by_cases h : p.1 = key
    · simp [find?, h]
    · simp [find?, h]

/-- In the map of some pairs the last pair of a key counts. -/
theorem find?_ofList (pairs : List (String × α)) (key : String) :
    (ofList pairs).find? key = find? pairs.reverse key := by
  rw [ofList, find?_foldl, find?_nil, Option.or_none]

/-- Every value in the map of some pairs comes from a pair with its key. -/
theorem mem_of_find?_ofList {pairs : List (String × α)} {key : String} {value : α}
    (h : (ofList pairs).find? key = some value) : (key, value) ∈ pairs := by
  rw [find?_ofList] at h
  exact List.mem_reverse.1 (mem_of_find? h)

/-- Exactly the keys of the pairs are in the map of the pairs. -/
theorem mem_keys_ofList (pairs : List (String × α)) (key : String) :
    key ∈ (ofList pairs).keys ↔ key ∈ keys pairs := by
  simp [ofList, mem_keys_foldl]

end Entries

/-- A map from names to values that keeps the order in which its keys were first inserted. -/
structure Keyed (α : Type) where
  entries : Entries α
  nodup : entries.keys.Nodup

namespace Keyed

variable {α β : Type}

/-- The map without keys. -/
def empty : Keyed α := ⟨[], by simp⟩

instance : Inhabited (Keyed α) := ⟨empty⟩

/-- The value stored under a key. -/
def find? (map : Keyed α) (key : String) : Option α := map.entries.find? key

/-- Whether a key is present. -/
def contains (map : Keyed α) (key : String) : Bool := (map.find? key).isSome

/-- The keys in order of first insertion. -/
def keys (map : Keyed α) : List String := map.entries.keys

/-- The values in the order of their keys. -/
def values (map : Keyed α) : List α := map.entries.map Prod.snd

/-- The number of keys. -/
def size (map : Keyed α) : Nat := map.entries.length

/-- Stores a value: a present key keeps its place, a new one goes to the end. -/
def insert (map : Keyed α) (key : String) (value : α) : Keyed α :=
  ⟨map.entries.insert key value, Entries.nodup_keys_insert map.nodup key value⟩

/-- The map of the pairs, inserted from left to right. -/
def ofList (pairs : List (String × α)) : Keyed α :=
  ⟨Entries.ofList pairs, Entries.nodup_keys_ofList pairs⟩

/-- Nothing is found in the empty map. -/
@[simp] theorem find?_empty (key : String) : (empty : Keyed α).find? key = none := rfl

/-- What was inserted last under a key is found there, and nothing else changes. -/
theorem find?_insert (map : Keyed α) (key : String) (value : α) (key' : String) :
    (map.insert key value).find? key' = if key = key' then some value else map.find? key' :=
  Entries.find?_insert map.entries key value key'

/-- A new key comes last, and a known one stays where it is. -/
theorem keys_insert (map : Keyed α) (key : String) (value : α) :
    (map.insert key value).keys = if key ∈ map.keys then map.keys else map.keys ++ [key] :=
  Entries.keys_insert map.entries key value

/-- A map contains exactly its keys. -/
theorem contains_iff (map : Keyed α) (key : String) : map.contains key = true ↔ key ∈ map.keys :=
  Entries.find?_isSome_iff

/-- A key under which something is found is one of the keys. -/
theorem mem_keys_of_find? {map : Keyed α} {key : String} {value : α}
    (h : map.find? key = some value) : key ∈ map.keys :=
  (map.contains_iff key).1 (Option.isSome_iff_exists.2 ⟨value, h⟩)

/-- In a map that is made from items, the last item of a name is found. -/
theorem find?_ofList_map {ι : Type} (items : List ι) (name : ι → String) (value : ι → α)
    (key : String) : (ofList (items.map fun item => (name item, value item))).find? key =
      (items.reverse.find? (name · == key)).map value := by
  show Entries.find? (Entries.ofList _) key = _
  rw [Entries.find?_ofList, ← List.map_reverse, Entries.find?_map]

/-- Distinct names that are all keys are no more than there are keys. -/
theorem length_le_size {map : Keyed α} {names : List String} (nodup : names.Nodup)
    (subset : names ⊆ map.keys) : names.length ≤ map.size := by
  have hle := nodup.length_le_of_subset subset
  rwa [keys, Entries.keys, List.length_map] at hle

end Keyed

end GraphClient
