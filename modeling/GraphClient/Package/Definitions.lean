import GraphClient.Schema.Basic
import GraphClient.TypeScript.SourceFile
import GraphClient.Typing.Resolve

/-!
# Definitions of named types

The named types of a schema as declarations, and the collection of the definitions that some names
need: those of the names themselves and of everything they mention, each once. Names that another
file defines are not followed.

* `NamedType.declaration?` : the declaration of a named type.
* `Definitions.of` : the definitions that some names need.
-/

namespace GraphClient

open TypeScript (TypeExpr Property Declaration Definition Item)

namespace NamedType

/-- The named types that the declaration of a type mentions. -/
def mentions (type : NamedType) : List String :=
  match type.body with
  | .object fields => fields.flatMap fun field => field.type.mentions
  | .inputObject fields => fields.flatMap fun field => field.type.mentions
  | .union members => members
  | .enumeration _ | .scalar => []

/-- The declaration of a named type; a scalar has none. -/
def declaration? (scalars : ScalarSettings) (type : NamedType) : Option Declaration :=
  match type.body with
  | .enumeration values =>
    some (.typeAlias type.name (.anyOf (values.map TypeExpr.literal)) type.description)
  | .union members =>
    some (.typeAlias type.name (.anyOf (members.map TypeExpr.named)) type.description)
  | .inputObject fields =>
    some (.interface type.name (fields.map fun field =>
      (Property.possibleIf (!field.type.isRequired) field.name
        (scalars.nullableExpr field.type)).withDocs field.description) type.description)
  | .object fields =>
    some (.interface type.name (fields.map fun field =>
      (Property.plain field.name (scalars.nullableExpr field.type)).withDocs field.description)
      type.description)
  | .scalar => none

/-- What stands for a type that is mentioned and not part of the schema. -/
def missing (name : String) : Item :=
  .definition {
    words := "type"
    name
    rest := " = unknown; /* missing from the introspected schema */" }

end NamedType

/-- Collected definitions with their names, and the mentioned names that another file defines. -/
structure Definitions where
  items : List (String × Item) := []
  elsewhere : NameSet := .empty
deriving Inhabited

namespace References

theorem length_insertName_le (name : String) (names : List String) :
    (insertName name names).length ≤ names.length + 1 := by
  induction names with
  | nil => simp [insertName]
  | cons n rest ih =>
    unfold insertName
    split
    · simp
    · split
      · simp
      · simpa using ih

/-- There are no more referenced names than mentions. -/
theorem length_schemaTypes_foldl_le (defined : NameSet) (names : List String) :
    ∀ references : References,
      (names.foldl (record defined) references).schemaTypes.names.length ≤
        references.schemaTypes.names.length + names.length := by
  induction names with
  | nil => simp
  | cons n rest ih =>
    intro references
    rw [List.foldl_cons]
    refine Nat.le_trans (ih _) ?_
    have h : (record defined references n).schemaTypes.names.length ≤
        references.schemaTypes.names.length + 1 := by
      unfold record
      split
      · simp
      · split
        · simp
        · exact length_insertName_le _ _
    simp only [List.length_cons]
    omega

theorem length_schemaTypes_ofNames_le (defined : NameSet) (names : List String) :
    (ofNames defined names).schemaTypes.names.length ≤ names.length := by
  have h := length_schemaTypes_foldl_le defined names {}
  simpa [ofNames, NameSet.empty] using h

end References

namespace Definitions

/-- The number of mentions in those of some named types whose name is not among `seen`. -/
def openMentions (seen : List String) : Entries NamedType → Nat
  | [] => 0
  | (name, type) :: rest =>
    (if name ∈ seen then 0 else type.mentions.length) + openMentions seen rest

theorem openMentions_cons_le (name : String) (seen : List String) (types : Entries NamedType) :
    openMentions (name :: seen) types ≤ openMentions seen types := by
  induction types with
  | nil => simp [openMentions]
  | cons p rest ih =>
    obtain ⟨key, type⟩ := p
    simp only [openMentions, List.mem_cons]
    by_cases h : key ∈ seen
    · simp [h, ih]
    · by_cases hk : key = name <;> simp [h, hk] <;> omega

/-- Seeing a type takes its mentions away. -/
theorem openMentions_cons_of_find? {name : String} {seen : List String}
    {types : Entries NamedType} {type : NamedType} (hs : name ∉ seen)
    (h : types.find? name = some type) :
    openMentions (name :: seen) types + type.mentions.length ≤ openMentions seen types := by
  induction types with
  | nil => simp at h
  | cons p rest ih =>
    obtain ⟨key, found⟩ := p
    have hle := openMentions_cons_le name seen rest
    by_cases hk : key = name
    · simp only [Entries.find?, hk, if_true, Option.some.injEq] at h
      subst h
      simp only [openMentions, hk, List.mem_cons, true_or, if_true, hs, if_false]
      omega
    · simp only [Entries.find?, hk, if_false] at h
      have := ih h
      simp only [openMentions, List.mem_cons, hk, false_or]
      omega

/-- The definitions with one more in front. -/
def withItem (name : String) (item : Item) (definitions : Definitions) : Definitions :=
  { definitions with items := (name, item) :: definitions.items }

/-- The definitions with further names that another file defines. -/
def withElsewhere (names : List String) (definitions : Definitions) : Definitions :=
  { definitions with elsewhere := definitions.elsewhere.insertAll names }

/-- Goes through a queue of names. `seen` holds the names that were met before, and `defined` those
that another file defines. The mentions of a type that is defined go to the end of the queue. -/
def visit (registry : TypeRegistry) (scalars : ScalarSettings) (defined : NameSet) :
    List String → List String → Definitions
  | [], _ => {}
  | name :: queue, seen =>
    if _met : isBuiltinType name ∨ name ∈ seen then visit registry scalars defined queue seen
    else if defined.contains name then
      (visit registry scalars defined queue (name :: seen)).withElsewhere [name]
    else
      match _found : registry.find? name with
      | none =>
        (visit registry scalars defined queue (name :: seen)).withItem name (NamedType.missing name)
      | some type =>
        match type.declaration? scalars with
        | none => visit registry scalars defined queue (name :: seen)
        | some declaration =>
          let references := References.ofNames defined type.mentions
          ((visit registry scalars defined (queue ++ references.schemaTypes.names)
            (name :: seen)).withElsewhere references.tableTypes.names).withItem name
              (.exported declaration)
termination_by queue seen => queue.length + openMentions seen registry.types.entries
decreasing_by
  all_goals simp only [List.length_cons, List.length_append]
  · omega
  · have := openMentions_cons_le name seen registry.types.entries
    omega
  · have := openMentions_cons_le name seen registry.types.entries
    omega
  · have := openMentions_cons_le name seen registry.types.entries
    omega
  · have h := openMentions_cons_of_find? (fun h => _met (.inr h)) _found
    have := References.length_schemaTypes_ofNames_le defined type.mentions
    omega

/-- The definitions that some names need. -/
def of (registry : TypeRegistry) (scalars : ScalarSettings) (defined : NameSet)
    (roots : List String) : Definitions := visit registry scalars defined roots []

/-- The defined names in order. -/
def names (definitions : Definitions) : List String := definitions.items.map Prod.fst

end Definitions

end GraphClient
