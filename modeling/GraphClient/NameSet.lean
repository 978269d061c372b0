/-!
# Sets of names

A set of names is kept as the strictly increasing list of its members, in the order of their code
points. Imports and reference summaries show their names in this order.
-/

namespace GraphClient

/-- Puts a name into an increasing list unless it is there. -/
def insertName (name : String) : List String → List String
  | [] => [name]
  | n :: rest =>
    if name = n then n :: rest
    else if name < n then name :: n :: rest
    else n :: insertName name rest

/-- A name that is inserted is there, beside those that were. -/
theorem mem_insertName {name x : String} {names : List String} :
    x ∈ insertName name names ↔ x = name ∨ x ∈ names := by
  induction names with
  | nil => simp [insertName]
  | cons n rest ih =>
    unfold insertName
    split
    · next h => subst h; simp
    · split
      · simp
      · simp only [List.mem_cons, ih]
        exact ⟨fun h => by rcases h with h | h | h <;> simp [h],
          fun h => by rcases h with h | h | h <;> simp [h]⟩

/-- The names stay in order. -/
theorem sorted_insertName {name : String} {names : List String} (h : names.Pairwise (· < ·)) :
    (insertName name names).Pairwise (· < ·) := by
  induction names with
  | nil => simp [insertName]
  | cons n rest ih =>
    rw [List.pairwise_cons] at h
    unfold insertName
    split
    · exact List.pairwise_cons.2 h
    · next hne =>
      split
      · next hlt =>
        refine List.pairwise_cons.2 ⟨?_, List.pairwise_cons.2 h⟩
        intro x hx
        rcases List.mem_cons.1 hx with rfl | hx
        · exact hlt
        · exact String.lt_trans hlt (h.1 x hx)
      · next hge =>
        refine List.pairwise_cons.2 ⟨?_, ih h.2⟩
        intro x hx
        rcases mem_insertName.1 hx with rfl | hx
        · rcases Decidable.em (n < x) with hlt | hle
          · exact hlt
          · exact absurd (String.le_antisymm (String.not_lt.1 hle) (String.not_lt.1 hge)) hne
        · exact h.1 x hx

/-- A finite set of names, listed in increasing order. -/
structure NameSet where
  names : List String
  sorted : names.Pairwise (· < ·)

namespace NameSet

/-- The set without members. -/
def empty : NameSet := ⟨[], List.Pairwise.nil⟩

instance : Inhabited NameSet := ⟨empty⟩

/-- Membership as a test. -/
def contains (set : NameSet) (name : String) : Bool := set.names.contains name

/-- The set with one more name. -/
def insert (set : NameSet) (name : String) : NameSet :=
  ⟨insertName name set.names, sorted_insertName set.sorted⟩

/-- The set with every name of a list. -/
def insertAll (set : NameSet) (names : List String) : NameSet := names.foldl insert set

/-- The set of the names of a list. -/
def ofList (names : List String) : NameSet := empty.insertAll names

/-- Whether the set has no member. -/
def isEmpty (set : NameSet) : Bool := set.names.isEmpty

instance : Membership String NameSet := ⟨fun set name => name ∈ set.names⟩

theorem mem_names {set : NameSet} {name : String} : name ∈ set.names ↔ name ∈ set := Iff.rfl

instance (name : String) (set : NameSet) : Decidable (name ∈ set) :=
  inferInstanceAs (Decidable (name ∈ set.names))

/-- To look a name up is to ask whether it is there. -/
@[simp] theorem contains_iff {set : NameSet} {name : String} :
    set.contains name = true ↔ name ∈ set := by
  simp [contains, ← mem_names]

/-- A name that is inserted is there, beside those that were. -/
@[simp] theorem mem_insert {set : NameSet} {name x : String} :
    x ∈ set.insert name ↔ x = name ∨ x ∈ set := mem_insertName

/-- All names that are inserted are there, beside those that were. -/
@[simp] theorem mem_insertAll {names : List String} {set : NameSet} {x : String} :
    x ∈ set.insertAll names ↔ x ∈ names ∨ x ∈ set := by
  unfold insertAll
  induction names generalizing set with
  | nil => simp
  | cons n rest ih =>
    rw [List.foldl_cons, ih, mem_insert, List.mem_cons]
    exact ⟨fun h => by rcases h with h | h | h <;> simp [h],
      fun h => by rcases h with (h | h) | h <;> simp [h]⟩

/-- No name is in the empty set. -/
@[simp] theorem not_mem_empty {x : String} : x ∉ empty := by
  rw [← mem_names]; simp [empty]

/-- The set of some names holds just them. -/
@[simp] theorem mem_ofList {names : List String} {x : String} : x ∈ ofList names ↔ x ∈ names := by
  simp [ofList]

end NameSet

end GraphClient
