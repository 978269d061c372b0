import GraphClient.Proofs.Traversal
import GraphClient.Schema.Wire

/-!
# Well-formed schemas

What the reader of schemas guarantees: the registry stores every type under its name, and a custom
operation is of the kind of the list that it stands in.
-/

namespace GraphClient

/-- Every type of a registry is stored under its name. -/
def TypeRegistry.Named (registry : TypeRegistry) : Prop :=
  ∀ name type, registry.find? name = some type → type.name = name

/-- What the reader of schemas guarantees. -/
structure Schema.WellFormed (schema : Schema) : Prop where
  named : schema.registry.Named
  queries : ∀ operation ∈ schema.queries, operation.kind = .query
  mutations : ∀ operation ∈ schema.mutations, operation.kind = .mutation

namespace TypeRegistry

/-- A registry that is made from a list of types stores every type under its name. -/
theorem named_ofList (types : List NamedType) : (ofList types).Named := by
  intro name type h
  obtain ⟨type', -, heq⟩ := List.mem_map.1 (Entries.mem_of_find?_ofList h)
  obtain ⟨rfl, rfl⟩ : type'.name = name ∧ type' = type := by simpa using heq
  rfl

/-- A registry that was read has every type under its name. -/
theorem named_of_ofJson {value : Json} {registry : TypeRegistry} (h : ofJson value = .ok registry) :
    registry.Named := by
  rw [ofJson] at h
  cases hlist : Json.toListOf NamedType.ofJson value with
  | error e => simp [hlist, Except.map] at h
  | ok types =>
    obtain rfl : ofList types = registry := by simpa [hlist, Except.map] using h
    exact named_ofList types

end TypeRegistry

/-- A field with a default is read, or the default takes its place. -/
theorem Entries.eq_or_exists_of_defaulted {α : Type} {fields : Entries Json} {name : String}
    {absent result : α} {inner : Json → Json.Decoded α}
    (h : fields.defaulted name absent inner = .ok result) :
    result = absent ∨ ∃ value, inner value = .ok result := by
  obtain ⟨found, -, h⟩ := exists_of_bind_eq_ok h
  cases found with
  | none => exact .inl (Except.ok.inj h).symm
  | some value => exact .inr ⟨value, h⟩

namespace CustomOperation

/-- An operation that was read has the kind of its group. -/
theorem kind_of_ofJson {kind : OperationKind} {value : Json} {operation : CustomOperation}
    (h : ofJson kind value = .ok operation) : operation.kind = kind := by
  obtain ⟨fields, -, h⟩ := exists_of_bind_eq_ok h
  obtain ⟨name, -, h⟩ := exists_of_bind_eq_ok h
  obtain ⟨arguments, -, h⟩ := exists_of_bind_eq_ok h
  obtain ⟨returnType, -, h⟩ := exists_of_bind_eq_ok h
  obtain ⟨description, -, h⟩ := exists_of_bind_eq_ok h
  rw [← Except.ok.inj h]

/-- All operations of a list are read as operations of one kind. -/
theorem kind_of_defaulted {kind : OperationKind} {fields : Entries Json} {name : String}
    {operations : List CustomOperation}
    (h : fields.defaulted name [] (Json.toListOf (ofJson kind)) = .ok operations) :
    ∀ operation ∈ operations, operation.kind = kind := by
  intro operation hmem
  rcases Entries.eq_or_exists_of_defaulted h with rfl | ⟨value, hvalue⟩
  · simp at hmem
  · cases value with
    | array items =>
      obtain ⟨item, -, hitem⟩ := exists_of_mem_mapM hvalue hmem
      exact kind_of_ofJson hitem
    | _ => simp [Json.toListOf] at hvalue

/-- The two groups that were read hold queries and mutations. -/
theorem kinds_of_groupsOfJson {value : Json} {groups : List CustomOperation × List CustomOperation}
    (h : groupsOfJson value = .ok groups) :
    (∀ operation ∈ groups.1, operation.kind = .query) ∧
      ∀ operation ∈ groups.2, operation.kind = .mutation := by
  obtain ⟨fields, -, h⟩ := exists_of_bind_eq_ok h
  obtain ⟨queries, hqueries, h⟩ := exists_of_bind_eq_ok h
  obtain ⟨mutations, hmutations, h⟩ := exists_of_bind_eq_ok h
  rw [← Except.ok.inj h]
  exact ⟨kind_of_defaulted hqueries, kind_of_defaulted hmutations⟩

end CustomOperation

/-- Every schema that is read is well-formed. -/
theorem Schema.wellFormed_of_ofJson {value : Json} {schema : Schema}
    (h : ofJson value = .ok schema) : schema.WellFormed := by
  obtain ⟨fields, -, h⟩ := exists_of_bind_eq_ok h
  obtain ⟨tables, -, h⟩ := exists_of_bind_eq_ok h
  obtain ⟨⟨queries, mutations⟩, hgroups, h⟩ := exists_of_bind_eq_ok h
  obtain ⟨registry, hregistry, h⟩ := exists_of_bind_eq_ok h
  obtain rfl : { tables, queries, mutations, registry } = schema := Except.ok.inj h
  have hkinds : (∀ operation ∈ queries, operation.kind = .query) ∧
      ∀ operation ∈ mutations, operation.kind = .mutation := by
    rcases Entries.eq_or_exists_of_defaulted hgroups with heq | ⟨value, hvalue⟩
    · obtain ⟨rfl, rfl⟩ : queries = [] ∧ mutations = [] := by simpa using heq
      simp
    · exact CustomOperation.kinds_of_groupsOfJson hvalue
  refine ⟨?_, hkinds.1, hkinds.2⟩
  rcases Entries.eq_or_exists_of_defaulted hregistry with rfl | ⟨value, hvalue⟩
  · intro name type hfind
    simp [TypeRegistry.find?, Keyed.find?, Keyed.empty] at hfind
  · exact TypeRegistry.named_of_ofJson hvalue

end GraphClient
