import GraphClient.NameSet
import GraphClient.Schema.TypeRef
import GraphClient.Typing.Scalar

/-!
# Referenced types

The names of types that an artifact refers to, split into those that the types file defines and the
other ones. Built-in names are never counted.
-/

namespace GraphClient

/-- The root types, the node interface and the page information have no definition of their own. -/
def rootTypeNames : List String := ["Query", "Mutation", "Subscription", "Node", "PageInfo"]

/-- Whether a name needs no definition: an introspection type, a root type, or a built-in scalar. -/
def isBuiltinType (name : String) : Bool :=
  ['_', '_'].isPrefixOf name.toList || rootTypeNames.contains name ||
    (Scalar.builtins.map (·.name)).contains name

/-- The named types that a reference mentions. -/
def TypeRef.mentions : TypeRef → List String
  | .nonNull inner | .list inner => inner.mentions
  | .object name | .inputObject name | .enumeration name => [name]
  | .scalar _ | .unresolved => []

/-- The referenced names that are defined for tables, and the other ones. -/
structure References where
  tableTypes : NameSet := .empty
  schemaTypes : NameSet := .empty
deriving Inhabited

namespace References

/-- Counts a name; `defined` holds the names that are defined for tables. -/
def record (defined : NameSet) (references : References) (name : String) : References :=
  if isBuiltinType name then references
  else if defined.contains name then
    { references with tableTypes := references.tableTypes.insert name }
  else { references with schemaTypes := references.schemaTypes.insert name }

/-- Counts every name of a list. -/
def ofNames (defined : NameSet) (names : List String) : References :=
  names.foldl (record defined) {}

/-- Whether no name was counted. -/
def isEmpty (references : References) : Bool :=
  references.tableTypes.isEmpty && references.schemaTypes.isEmpty

theorem mem_tableTypes_record (defined : NameSet) (references : References) (name x : String) :
    x ∈ (record defined references name).tableTypes ↔
      x ∈ references.tableTypes ∨ (x = name ∧ isBuiltinType x = false ∧ x ∈ defined) := by
  rw [record]
  split
  · grind
  · split
    · grind [NameSet.mem_insert, NameSet.contains_iff]
    · grind [NameSet.contains_iff]

theorem mem_schemaTypes_record (defined : NameSet) (references : References) (name x : String) :
    x ∈ (record defined references name).schemaTypes ↔
      x ∈ references.schemaTypes ∨ (x = name ∧ isBuiltinType x = false ∧ x ∉ defined) := by
  rw [record]
  split
  · grind
  · split
    · grind [NameSet.contains_iff]
    · grind [NameSet.mem_insert, NameSet.contains_iff]

/-- What one name adds to the names that are counted, all names of a list add together. -/
theorem mem_foldl_record {defined : NameSet} {counted : References → NameSet} {x : String}
    {counts : Prop} (step : ∀ references name, x ∈ counted (record defined references name) ↔
      x ∈ counted references ∨ (x = name ∧ counts)) (names : List String) :
    ∀ references, x ∈ counted (names.foldl (record defined) references) ↔
      x ∈ counted references ∨ (x ∈ names ∧ counts) := by
  induction names with
  | nil => simp
  | cons name rest ih =>
    intro references
    rw [List.foldl_cons, ih, step, List.mem_cons, or_assoc, or_and_right]

/-- A name is counted as a table type if it is mentioned, not built in, and defined. -/
theorem mem_tableTypes_ofNames {defined : NameSet} {names : List String} {x : String} :
    x ∈ (ofNames defined names).tableTypes ↔
      x ∈ names ∧ isBuiltinType x = false ∧ x ∈ defined := by
  rw [ofNames, mem_foldl_record (mem_tableTypes_record defined · · x)]
  simp

/-- A name is counted as another type if it is mentioned, not built in, and not defined. -/
theorem mem_schemaTypes_ofNames {defined : NameSet} {names : List String} {x : String} :
    x ∈ (ofNames defined names).schemaTypes ↔
      x ∈ names ∧ isBuiltinType x = false ∧ x ∉ defined := by
  rw [ofNames, mem_foldl_record (mem_schemaTypes_record defined · · x)]
  simp

end References

end GraphClient
