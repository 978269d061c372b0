import GraphClient.NameSet

/-!
# Imports

Import statements, and the collection of the names that a file imports: each source once, sources
and names in order, values before types.
-/

namespace GraphClient

namespace TypeScript

/-- What is imported from a source. -/
inductive Imported where
  | names (names : List String)
  | everything (name : String)
deriving Repr, DecidableEq, Inhabited

/-- An import statement. -/
structure Import where
  source : String
  imported : Imported
  typeOnly : Bool := false
deriving Repr, DecidableEq, Inhabited

namespace Import

/-- The names that an import brings in one by one. -/
def names (statement : Import) : List String :=
  match statement.imported with
  | .names names => names
  | .everything _ => []

/-- The text of an import statement. -/
def text (statement : Import) : String :=
  "import " ++ (if statement.typeOnly then "type " else "") ++
    (match statement.imported with
      | .names names => "\x7b " ++ String.intercalate ", " names ++ " \x7d"
      | .everything name => "* as " ++ name) ++
    " from '" ++ statement.source ++ "';"

end Import

/-- Names by their sources, a source perhaps more than once. -/
abbrev ImportRequests := List (String × List String)

namespace ImportRequests

/-- The names that are asked for from a source. -/
def namesFrom (requests : ImportRequests) (source : String) : NameSet :=
  NameSet.ofList (List.flatMap Prod.snd (List.filter (fun p => p.1 == source) requests))

/-- One statement for every source that some name is asked for from. -/
def statements (requests : ImportRequests) (typeOnly : Bool) : List Import :=
  (NameSet.ofList (List.map Prod.fst requests)).names.filterMap fun source =>
    let names := (namesFrom requests source).names
    if names.isEmpty then none else some ⟨source, .names names, typeOnly⟩

theorem mem_namesFrom {requests : ImportRequests} {source name : String} :
    name ∈ namesFrom requests source ↔ ∃ p ∈ requests, p.1 = source ∧ name ∈ p.2 := by
  simp [namesFrom, and_assoc]

/-- A statement brings in exactly the names that are asked for from its source. -/
theorem mem_statements {requests : ImportRequests} {typeOnly : Bool} {statement : Import}
    (h : statement ∈ statements requests typeOnly) (name : String) :
    name ∈ statement.names ↔ ∃ p ∈ requests, p.1 = statement.source ∧ name ∈ p.2 := by
  unfold statements at h
  obtain ⟨source, -, h⟩ := List.mem_filterMap.1 h
  simp only at h
  split at h
  · simp at h
  · simp only [Option.some.injEq] at h
    subst h
    rw [← mem_namesFrom]
    rfl

end ImportRequests

/-- The names that a file imports, values and types apart. -/
structure ImportSet where
  values : ImportRequests := []
  types : ImportRequests := []
deriving Repr, DecidableEq, Inhabited

namespace ImportSet

/-- Whether nothing was asked for. -/
def isEmpty (set : ImportSet) : Bool := set.values.isEmpty && set.types.isEmpty

/-- The set of one value. -/
def value (source name : String) : ImportSet := { values := [(source, [name])] }

/-- The set of some types of one source. -/
def typesFrom (source : String) (names : List String) : ImportSet := { types := [(source, names)] }

/-- The names of two sets. -/
def append (a b : ImportSet) : ImportSet := ⟨a.values ++ b.values, a.types ++ b.types⟩

instance : Append ImportSet := ⟨append⟩

/-- The import statements of the set: values first, then types, each by source. -/
def statements (set : ImportSet) : List Import :=
  ImportRequests.statements set.values false ++ ImportRequests.statements set.types true

theorem values_append (a b : ImportSet) : (a ++ b).values = a.values ++ b.values := rfl

theorem types_append (a b : ImportSet) : (a ++ b).types = a.types ++ b.types := rfl

end ImportSet

end TypeScript

end GraphClient
