import GraphClient.Package.Basic
import GraphClient.Proofs.Package.Closure
import GraphClient.Proofs.Schema.WellFormed
import Mathlib.Data.List.Perm.Basic

/-!
# What the files of a package export

The names that the files at the top of a package export. The types file exports all names that are
counted as defined there, with one exception: a table whose type has another name is counted under
its own name, too.
-/

namespace GraphClient

open TypeScript (Declaration Definition Item SourceFile)

/-! ## Collected definitions -/

namespace Definitions

variable {registry : TypeRegistry} {scalars : ScalarSettings} {defined : NameSet}

/-- An item that defines a name exports just that name. -/
theorem Defines.exportedNames (named : registry.Named) {name : String} {item : Item}
    (h : Defines registry scalars name item) : item.exportedNames = [name] := by
  cases h with
  | missing notFound => rfl
  | @declaration type declaration found declared =>
    have hname : declaration.name = name := by
      rw [NamedType.name_of_declaration? declared, named name type found]
    simp [Item.exported, Item.exportedNames, hname]

/-- The collected items export the names that they are collected under. -/
theorem flatMap_exportedNames_of (named : registry.Named) (roots : List String) :
    ((of registry scalars defined roots).items.map Prod.snd).flatMap (·.exportedNames) =
      (of registry scalars defined roots).names := by
  have hitems := @defines_of_mem_items_of registry scalars defined roots
  rw [names]
  generalize (of registry scalars defined roots).items = items at hitems ⊢
  induction items with
  | nil => rfl
  | cons p rest ih =>
    rw [List.forall_mem_cons] at hitems
    simp [hitems.1.exportedNames named, ← ih hitems.2]

end Definitions

/-! ## The types file -/

/-- Exported declarations export their names. -/
theorem flatMap_exportedNames_exported (declarations : List Declaration) :
    (declarations.map Item.exported).flatMap (·.exportedNames) =
      declarations.map (·.name) := by
  induction declarations with
  | nil => rfl
  | cons declaration rest ih => simp [Item.exported, Item.exportedNames, ← ih]

namespace TypesFile

/-- The names of the types that the types file defines for a table. -/
def typeNames (table : Table) : List String :=
  let names := table.entityNames
  [names.typeName, names.withRelationsType, names.selectType] ++ names.inputFamily

/-- An input type has the name of the derived one, be it derived or taken from the registry. -/
theorem name_declaredInput {schema : Schema} (named : schema.registry.Named)
    (scalars : ScalarSettings) (derived : Declaration) :
    (declaredInput schema scalars derived).name = derived.name := by
  rw [declaredInput]
  cases hdeclared : (schema.registry.find? derived.name).bind (·.declaration? scalars) with
  | none => rfl
  | some declaration =>
    obtain ⟨type, hfind, hdeclaration⟩ := Option.bind_eq_some_iff.1 hdeclared
    rw [Option.getD_some, NamedType.name_of_declaration? hdeclaration, named _ type hfind]

/-- The input types of a table have the names of the input family. -/
theorem map_name_inputTypes {schema : Schema} (named : schema.registry.Named)
    (scalars : ScalarSettings) (table : Table) :
    (inputTypes schema scalars table).map (·.name) = table.entityNames.inputFamily := by
  rw [inputTypes, List.map_map]
  have hname : (fun declaration : Declaration => declaration.name) ∘ declaredInput schema scalars =
      (·.name) := funext fun derived => name_declaredInput named scalars derived
  rw [hname]
  rfl

/-- The interface of a filter has the name of the filter. -/
theorem name_filterInterface (name : String) (filter : UsedFilter) :
    (filterInterface name filter).name = name := by
  cases filter <;> rfl

/-- The items for the tables export the filters that are used, and the types of the tables. They
stand kind by kind in the file. -/
theorem exportedNames_tableItems_perm {schema : Schema} (named : schema.registry.Named)
    (scalars : ScalarSettings) (page : PageNames) :
    List.Perm ((tableItems schema scalars page).flatMap (·.exportedNames))
      ((usedFilters scalars schema.tables).keys ++ schema.tables.flatMap typeNames) := by
  have hfilters : ((usedFilters scalars schema.tables).entries.map fun p =>
      filterInterface p.1 p.2).map (·.name) = (usedFilters scalars schema.tables).keys := by
    rw [List.map_map]
    exact List.map_congr_left fun p _ => name_filterInterface p.1 p.2
  have hinputs : (schema.tables.flatMap (inputTypes schema scalars)).map (·.name) =
      schema.tables.flatMap (·.entityNames.inputFamily) := by
    simp only [List.map_flatMap, map_name_inputTypes named]
  have hnames : (tableItems schema scalars page).flatMap (·.exportedNames) =
      (usedFilters scalars schema.tables).keys ++
        ((schema.tables.flatMap fun table => [table.entityNames.typeName]) ++
          ((schema.tables.flatMap fun table => [table.entityNames.withRelationsType]) ++
            ((schema.tables.flatMap fun table => [table.entityNames.selectType]) ++
              schema.tables.flatMap (·.entityNames.inputFamily)))) := by
    rw [tableItems, flatMap_exportedNames_exported]
    simp only [List.map_append, hfilters, hinputs, List.append_assoc, List.map_map,
      ← List.map_eq_flatMap]
    rfl
  -- One kind after the other is moved to where its table stands.
  have hselect := List.flatMap_append_perm schema.tables
    (fun table => [table.entityNames.selectType]) (·.entityNames.inputFamily)
  have hrelations := List.flatMap_append_perm schema.tables
    (fun table => [table.entityNames.withRelationsType])
    fun table => [table.entityNames.selectType] ++ table.entityNames.inputFamily
  have hrow := List.flatMap_append_perm schema.tables
    (fun table => [table.entityNames.typeName]) fun table =>
      [table.entityNames.withRelationsType] ++
        ([table.entityNames.selectType] ++ table.entityNames.inputFamily)
  rw [hnames]
  exact ((((hselect.append_left _).trans hrelations).append_left _).trans hrow).append_left _

/-- The types file exports the collected types, the filters that are used, and the types of the
tables. -/
theorem exportedNames_file_perm {blueprint : Blueprint}
    (named : blueprint.schema.registry.Named) :
    List.Perm (file blueprint).exportedNames
      ((definitions blueprint).names ++
        ((usedFilters blueprint.scalars blueprint.schema.tables).keys ++
          blueprint.schema.tables.flatMap typeNames)) := by
  have hdefinitions := @Definitions.flatMap_exportedNames_of blueprint.schema.registry
    blueprint.scalars (ownNames blueprint.schema blueprint.scalars) named
  rw [SourceFile.exportedNames, file, List.flatMap_append, definitions, Blueprint.definitions,
    hdefinitions]
  exact (exportedNames_tableItems_perm named _ _).append_left _

/-- The file of the table types exports registry types, filters and the types of the tables. -/
theorem mem_exportedNames_file_iff {blueprint : Blueprint}
    (named : blueprint.schema.registry.Named) (name : String) :
    name ∈ (file blueprint).exportedNames ↔
      name ∈ (definitions blueprint).names ∨
        name ∈ (usedFilters blueprint.scalars blueprint.schema.tables).keys ∨
        ∃ table ∈ blueprint.schema.tables, name ∈ typeNames table := by
  rw [(exportedNames_file_perm named).mem_iff, List.mem_append, List.mem_append, List.mem_flatMap]

/-- Where tables mention no types, the types file defines none besides. -/
theorem not_mem_definitions {blueprint : Blueprint} (hnone : blueprint.schema.tables.flatMap
    (tableMentions blueprint.schema) = []) {name : String} :
    name ∉ (definitions blueprint).names := by
  rw [definitions, Blueprint.definitions, hnone, Definitions.mem_names_of_iff]
  rintro ⟨reached, -⟩
  exact reached.roots_ne_nil rfl

/-- What counts as defined in the types file is exported there, or is the own name of a table. -/
theorem mem_definedNames_iff {blueprint : Blueprint} (named : blueprint.schema.registry.Named)
    (name : String) :
    name ∈ definedNames blueprint ↔
      name ∈ (file blueprint).exportedNames ∨
        ∃ table ∈ blueprint.schema.tables, name = table.name := by
  have htable : ∀ table : Table, tableNames table = table.name :: typeNames table := fun _ => rfl
  rw [mem_exportedNames_file_iff named, definedNames, ownNames]
  simp only [NameSet.mem_insertAll, NameSet.mem_ofList, List.mem_append, List.mem_flatMap, htable,
    List.mem_cons]
  constructor
  · rintro (h | ⟨table, hmem, h | h⟩ | h)
    · exact .inl (.inl h)
    · exact .inr ⟨table, hmem, h⟩
    · exact .inl (.inr (.inr ⟨table, hmem, h⟩))
    · exact .inl (.inr (.inl h))
  · rintro ((h | h | ⟨table, hmem, h⟩) | ⟨table, hmem, h⟩)
    · exact .inl h
    · exact .inr (.inr h)
    · exact .inr (.inl ⟨table, hmem, .inr h⟩)
    · exact .inr (.inl ⟨table, hmem, .inl h⟩)

end TypesFile

/-! ## The other files at the top -/

/-- The file of the types for custom operations is there if it has something to define, and exports
just that. -/
theorem CustomFiles.exists_schemaTypesFile?_iff {blueprint : Blueprint}
    (named : blueprint.schema.registry.Named) (defined roots : NameSet) (name : String) :
    (∃ file, schemaTypesFile? blueprint defined roots = some file ∧ name ∈ file.exportedNames) ↔
      name ∈ (blueprint.definitions defined roots.names).names := by
  have hnames := @Definitions.flatMap_exportedNames_of blueprint.schema.registry
    blueprint.scalars defined named roots.names
  rw [← Blueprint.definitions] at hnames
  rw [schemaTypesFile?]
  by_cases hempty : (blueprint.definitions defined roots.names).items.isEmpty = true
  · rw [List.isEmpty_iff] at hempty
    simp [Definitions.names, hempty]
  · rw [if_neg hempty]
    constructor
    · rintro ⟨file, hfile, h⟩
      obtain rfl := Option.some.inj hfile
      rwa [SourceFile.exportedNames, hnames] at h
    · intro h
      exact ⟨_, rfl, by rwa [SourceFile.exportedNames, hnames]⟩

/-- The client exports six names, whatever the schema. -/
theorem ClientFile.exportedNames_file (blueprint : Blueprint) :
    (file blueprint).exportedNames =
      ["ClientConfig", "configure", "GraphQLErrorEntry", "GraphQLRequestError", "execute",
        "selectionSet"] := rfl

/-- The file of the selection types exports four names, whatever the schema. -/
theorem SelectTypes.exportedNames_file (blueprint : Blueprint) :
    (file blueprint).exportedNames =
      ["PageInfo", connectionType, "StrictSelect", "InferSelectResult"] := rfl

namespace KeyStore

/-- The file of query keys exports the factory of every table, and the type of its scopes if there
are any. -/
theorem mem_exportedNames_queryKeyItems {store : KeyStore} {factory : KeyFactory}
    (h : factory ∈ store.factories) :
    factory.queryKeys ∈ store.queryKeyItems.flatMap (·.exportedNames) ∧
      (factory.keys.isScoped = true →
        factory.scopeType ∈ store.queryKeyItems.flatMap (·.exportedNames)) := by
  have hitem : ∀ item ∈ factory.queryKeyItems, item ∈ store.queryKeyItems := by
    intro item hitem
    simp only [queryKeyItems, List.mem_append, List.mem_flatMap]
    exact .inl (.inl ⟨factory, h, hitem⟩)
  constructor
  · refine List.mem_flatMap.2 ⟨KeyFactory.constObject factory.queryKeys factory.queryKeyLines,
      hitem _ ?_, ?_⟩
    · simp [KeyFactory.queryKeyItems]
    · simp [KeyFactory.constObject, Item.exportedNames]
  · intro hscoped
    refine List.mem_flatMap.2 ⟨.exported factory.scopeInterface, hitem _ ?_, ?_⟩
    · simp [KeyFactory.queryKeyItems, hscoped]
    · simp [Item.exported, Item.exportedNames, KeyFactory.scopeInterface, Declaration.interface]

/-- The mutation keys of every table are exported. -/
theorem mem_exportedNames_mutationKeyItems {store : KeyStore} {factory : KeyFactory}
    (h : factory ∈ store.factories) :
    factory.mutationKeys ∈ store.mutationKeyItems.flatMap (·.exportedNames) := by
  refine List.mem_flatMap.2 ⟨KeyFactory.constObject factory.mutationKeys factory.mutationKeyLines,
    ?_, ?_⟩
  · simp only [mutationKeyItems, List.mem_append, List.mem_map]
    exact .inl (.inl ⟨factory, h, rfl⟩)
  · simp [KeyFactory.constObject, Item.exportedNames]

/-- The files of keys export the factories of the custom operations, if there are any. -/
theorem customQueryKeys_mem_exportedNames {store : KeyStore} (h : store.customQueries ≠ []) :
    store.customQueryKeys ∈ store.queryKeyItems.flatMap (·.exportedNames) := by
  simp [queryKeyItems, h, KeyFactory.constObject, Item.exportedNames]

/-- The keys of custom mutations are exported if there are any. -/
theorem customMutationKeys_mem_exportedNames {store : KeyStore} (h : store.customMutations ≠ []) :
    store.customMutationKeys ∈ store.mutationKeyItems.flatMap (·.exportedNames) := by
  simp [mutationKeyItems, h, KeyFactory.constObject, Item.exportedNames]

end KeyStore

end GraphClient
