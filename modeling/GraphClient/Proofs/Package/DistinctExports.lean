import GraphClient.Proofs.CacheKey.FactoryNames
import GraphClient.Proofs.Package.DefinedOnce
import GraphClient.Proofs.Package.Manifest
import GraphClient.Proofs.Package.OperationExports

/-!
# Distinct exports

All files of a package can be reached from its index along re-exports, so a name that two of its
items export is exported twice by the index. The names are made in several ways: those of types come
from the schema, those of operations from the root fields, those of key factories from the tables,
and some are fixed. Most pairs of these can never be the same.

* `Package.exports` : all names that the files of a package export.
* `Package.Parts.Distinct` : what has to hold of the names that a schema gives.
* `Package.exports_nodup_iff` : when the exported names are distinct.
-/

namespace GraphClient

/-! ## The files of operations -/

/-- All operations of a client. -/
def Schema.exportedOperations (schema : Schema) : List ExportedOperation :=
  schema.tables.flatMap (·.entityNames.exportedQueries) ++
    schema.tables.flatMap (·.entityNames.exportedMutations) ++
    schema.queries.map (·.exported) ++ schema.mutations.map (·.exported)

namespace Package.Parts

variable {parts : Parts} {schema : Schema} {settings : Settings}

/-- The files of all tables export what the names of the tables say, one kind of operations at a
time. -/
theorem tableExports_eq (h : parts.IsOf schema settings)
    (files : TableFiles.Entries → List TableFiles.Entry)
    (operations : EntityNames → List ExportedOperation)
    (hfiles : ∀ factory table templates,
      (files (TableFiles.entries parts.blueprint factory table templates)).flatMap
          (·.fragment.exportedNames) =
        (operations table.entityNames).flatMap
          (·.exportedNames parts.blueprint.settings.hooks)) :
    (parts.tables.flatMap fun entries => (files entries).map parts.entryFile).flatMap
        (·.2.exportedNames) =
      (schema.tables.flatMap fun table => operations table.entityNames).flatMap
        (·.exportedNames settings.hooks) := by
  have hread := TableFiles.map_eq_of_all h.tables_eq
    (fun entries => (files entries).flatMap (·.fragment.exportedNames))
    (fun table => (operations table.entityNames).flatMap
      (·.exportedNames parts.blueprint.settings.hooks)) hfiles
  rw [h.tables, h.settings] at hread
  rw [List.flatMap_assoc, List.flatMap_assoc, List.flatMap_def, List.flatMap_def, ← hread]
  simp only [List.flatMap_map]
  rfl

/-- The files of custom operations export what the names of the operations say. -/
theorem customExports_eq (h : parts.IsOf schema settings)
    {operations : List CustomOperation} {made : List (CustomOperation × Fragment)}
    (hmade : CustomFiles.fragments parts.blueprint operations = .ok made) :
    (made.map parts.customFile).flatMap (·.2.exportedNames) =
      (operations.map (·.exported)).flatMap (·.exportedNames settings.hooks) := by
  have hread : made.map (fun p => p.2.exportedNames) =
      operations.map fun operation => operation.exported.exportedNames settings.hooks := by
    refine map_eq_of_mapM hmade fun operation _ p hp => ?_
    obtain ⟨template, -, rfl⟩ := exists_template_of_made hp
    rw [← h.settings]
    exact CustomFiles.exportedNames_fragment operation template
  rw [List.flatMap_map, List.flatMap_map, List.flatMap_def, List.flatMap_def, ← hread]
  rfl

/-- The files in the directories export the names of all operations. -/
theorem operationExports_eq (h : parts.IsOf schema settings) :
    parts.directories.flatMap (fun directory => directory.files.flatMap (·.2.exportedNames)) =
      schema.exportedOperations.flatMap (·.exportedNames settings.hooks) := by
  have hqueries :=
    tableExports_eq h (·.queries) (·.exportedQueries) TableFiles.exportedNames_queries
  have hmutations :=
    tableExports_eq h (·.mutations) (·.exportedMutations) TableFiles.exportedNames_mutations
  simp only [directories, List.flatMap_cons, List.flatMap_nil, List.append_nil, hqueries,
    hmutations, customExports_eq h h.queries_eq, customExports_eq h h.mutations_eq,
    Schema.exportedOperations, List.flatMap_append, List.append_assoc]

end Package.Parts

/-! ## Names that never meet -/

/-- The names that are exported by every client. -/
def fixedNames : List String :=
  ["PageInfo", connectionType, "StrictSelect", "InferSelectResult", "ClientConfig", "configure",
    "GraphQLErrorEntry", "GraphQLRequestError", "execute", "selectionSet"]

/-- An exported name of an operation has none of the endings that other kinds of names have. Two
endings of which none ends in the other cannot end one name. -/
theorem ExportedOperation.ne_append_of_mem_coreNames {operation : ExportedOperation} {hooks : Bool}
    {name : String} (h : name ∈ operation.coreNames hooks) (front : String) {ending : String}
    (hending : ∀ other ∈ OperationNames.endings, ¬ other.toList <:+ ending.toList ∧
      ¬ ending.toList <:+ other.toList)
    (hletter : ending.toList.getLast? ∉ [none, some 'n', some 'N']) : name ≠ front ++ ending := by
  obtain ⟨form, -, rfl⟩ := List.mem_map.1 h
  exact operation.names.named_ne_append form front hending hletter

/-- An operation has none of the fixed names, apart from its accessor. -/
theorem ExportedOperation.coreNames_disjoint_fixedNames (operation : ExportedOperation)
    (hooks : Bool) : List.Disjoint (operation.coreNames hooks) fixedNames := by
  have hfixed : ∀ name ∈ fixedNames, (∀ other ∈ OperationNames.endings,
      ¬ other.toList <:+ name.toList ∧ ¬ name.toList <:+ other.toList) ∧
        name.toList.getLast? ∉ [none, some 'n', some 'N'] := by decide +kernel
  intro name hcore hname
  obtain ⟨hending, hletter⟩ := hfixed name hname
  exact ne_append_of_mem_coreNames hcore "" hending hletter String.empty_append.symm

/-- An operation has no name of a factory of keys, apart from its accessor. -/
theorem ExportedOperation.coreNames_disjoint_keyNames (operation : ExportedOperation) (hooks : Bool)
    {store : KeyStore} (named : ∀ factory ∈ store.factories, factory.IsNamed) (mutations : Bool) :
    List.Disjoint (operation.coreNames hooks) (store.exportedNames mutations) := by
  have hendings : ∀ ending ∈ ["Keys", "Scope"], (∀ other ∈ OperationNames.endings,
      ¬ other.toList <:+ ending.toList ∧ ¬ ending.toList <:+ other.toList) ∧
        ending.toList.getLast? ∉ [none, some 'n', some 'N'] := by decide +kernel
  intro name hcore hname
  obtain ⟨front, ending, hmem, heq⟩ := KeyStore.exists_ending named hname
  obtain ⟨hending, hletter⟩ := hendings ending hmem
  exact ne_append_of_mem_coreNames hcore front hending hletter heq

/-- No factory of keys has one of the fixed names. -/
theorem KeyStore.disjoint_fixedNames {store : KeyStore}
    (named : ∀ factory ∈ store.factories, factory.IsNamed) (mutations : Bool) :
    List.Disjoint fixedNames (store.exportedNames mutations) := by
  have hendings : ∀ ending ∈ ["Keys", "Scope"], ∀ name ∈ fixedNames,
      ¬ ending.toList <:+ name.toList := by decide
  intro name hfixed hname
  obtain ⟨front, ending, hmem, heq⟩ := KeyStore.exists_ending named hname
  exact Text.append_ne_of_not_suffix (hendings ending hmem name hfixed) heq.symm

/-- The names that every package exports are distinct. -/
theorem nodup_fixedNames : fixedNames.Nodup := by decide

/-- The first row of a list is there for a query. -/
theorem Schema.kind_eq_of_firstRow (schema : Schema) :
    ∀ operation ∈ schema.exportedOperations, operation.role = .firstRow →
      operation.names.kind = .query := by
  intro operation hmem hrole
  simp only [exportedOperations, EntityNames.exportedQueries, EntityNames.exportedMutations,
    List.mem_append, List.mem_flatMap, List.mem_map, List.mem_cons, List.not_mem_nil,
    or_false] at hmem
  rcases hmem with ((⟨table, -, rfl | rfl | rfl⟩ | ⟨table, -, rfl | rfl | rfl⟩) |
    ⟨custom, -, rfl⟩) | ⟨custom, -, rfl⟩
  all_goals first | rfl | cases hrole

namespace Package

/-- All names that the files of a package export, each as often as it is exported. -/
def exports (package : Package) : List String := package.artifacts.flatMap (·.file.exportedNames)

namespace Parts

variable (parts : Parts)

/-- The names of all types: those of the types file and those for custom operations. -/
def typeNames : List String :=
  (TypesFile.file parts.blueprint).exportedNames ++
    parts.schemaTypesFile?.toList.flatMap (·.exportedNames)

/-- The names that the files of keys export, if keys are shared. -/
def keyNames : List String :=
  if parts.blueprint.sharesKeys then
    parts.blueprint.keys.exportedNames parts.blueprint.settings.keys.mutationKeys
  else []

/-- The operations of the client. -/
def operations : List ExportedOperation := parts.blueprint.schema.exportedOperations

/-- The names of the accessors of all operations. -/
def accessors : List String := parts.operations.flatMap (·.accessors)

/-- The names of all operations, apart from their accessors. -/
def coreNames : List String :=
  parts.operations.flatMap (·.coreNames parts.blueprint.settings.hooks)

/-- All exported names apart from those of accessors and of the types of the schema. -/
def valueNames : List String := fixedNames ++ parts.keyNames ++ parts.coreNames

/-- The names that a schema gives to types, operations and tables can be told apart where the names
made of them could be the same. -/
structure Distinct (parts : Parts) : Prop where
  /-- The types and filters of the tables. -/
  types : ((TypesFile.usedFilters parts.blueprint.scalars parts.blueprint.schema.tables).keys ++
    parts.blueprint.schema.tables.flatMap TypesFile.typeNames).Nodup
  operations : ExportedOperation.Apart parts.blueprint.settings.hooks parts.operations
  keys : parts.blueprint.sharesKeys = true →
    parts.blueprint.keys.Apart parts.blueprint.settings.keys.mutationKeys
  accessors : parts.accessors.Nodup
  /-- An accessor is not called like something else. -/
  accessor : ∀ name ∈ parts.accessors, name ∉ parts.valueNames
  /-- A type is not called like something else. -/
  type : ∀ name ∈ parts.typeNames, name ∉ parts.valueNames ∧ name ∉ parts.accessors

variable {parts} {schema : Schema} {settings : Settings}

/-! ## What is exported -/

/-- An index of a directory exports nothing of its own. -/
theorem exportedNames_barrel (description : String) (sources : List String) :
    (barrel description sources).exportedNames = [] :=
  List.flatMap_eq_nil_iff.2 (List.forall_mem_map.2 fun _ _ => rfl)

/-- A directory exports what its files do. -/
theorem exportedNames_directory (directory : Directory) :
    directory.artifacts.flatMap (·.file.exportedNames) =
      directory.files.flatMap (·.2.exportedNames) := by
  rw [Directory.artifacts]
  split
  · next hempty =>
    rw [List.isEmpty_iff.1 hempty]
    rfl
  · rw [List.flatMap_append, List.flatMap_map, List.flatMap_singleton, exportedNames_barrel,
      List.append_nil]

/-- A package exports the names of its files at the top and of its operations. -/
theorem exports_eq (h : parts.IsOf schema settings) :
    parts.package.exports = parts.topFiles.flatMap (·.2.exportedNames) ++
      parts.operations.flatMap (·.exportedNames parts.blueprint.settings.hooks) := by
  have hindex : parts.index.exportedNames = [] := exportedNames_barrel _ _
  have hoperations : parts.operations = schema.exportedOperations := by
    rw [operations, h.blueprint_eq]
    rfl
  show parts.artifacts.flatMap (·.file.exportedNames) = _
  rw [artifacts, List.flatMap_append, List.flatMap_append, List.flatMap_map, List.flatMap_singleton,
    hindex, List.append_nil, List.flatMap_assoc, hoperations, h.settings, ← operationExports_eq h]
  simp only [exportedNames_directory]

/-- The names that a package exports, by what they are made for. -/
theorem exports_perm (h : parts.IsOf schema settings) :
    List.Perm parts.package.exports
      (parts.typeNames ++ (parts.valueNames ++ parts.accessors)) := by
  have hkeys : (if parts.blueprint.sharesKeys then [("query-keys", parts.queryKeysFile)]
        else []).flatMap (·.2.exportedNames) ++
      (if parts.blueprint.sharesMutationKeys then [("mutation-keys", parts.mutationKeysFile)]
        else []).flatMap (·.2.exportedNames) = parts.keyNames := by
    rw [keyNames, Blueprint.sharesMutationKeys, KeyStore.exportedNames]
    cases parts.blueprint.sharesKeys <;> cases parts.blueprint.settings.keys.mutationKeys <;>
      simp [queryKeysFile, mutationKeysFile, TypeScript.SourceFile.exportedNames]
  have hoperations : List.Perm
      (parts.operations.flatMap (·.exportedNames parts.blueprint.settings.hooks))
      (parts.coreNames ++ parts.accessors) := by
    refine (List.Perm.flatMap_left _ fun operation _ => operation.exportedNames_perm).trans ?_
    exact (List.flatMap_append_perm _ _ _).symm
  have htop : parts.topFiles.flatMap (·.2.exportedNames) =
      (SelectTypes.file parts.blueprint).exportedNames ++ parts.typeNames ++
        (ClientFile.file parts.blueprint).exportedNames ++ parts.keyNames := by
    rw [topFiles, ← hkeys, typeNames]
    simp only [List.flatMap_append, List.flatMap_map, List.flatMap_cons, List.flatMap_nil,
      List.append_assoc, List.append_nil]
  rw [exports_eq h, htop, SelectTypes.exportedNames_file, ClientFile.exportedNames_file]
  -- The same lists stand in another order, so each name is there as often.
  refine (hoperations.append_left _).trans (List.perm_iff_count.2 fun name => ?_)
  have hfixed : fixedNames = ["PageInfo", connectionType, "StrictSelect", "InferSelectResult"] ++
      ["ClientConfig", "configure", "GraphQLErrorEntry", "GraphQLRequestError", "execute",
        "selectionSet"] := rfl
  rw [valueNames, hfixed]
  simp only [List.count_append]
  omega

/-! ## When the names are distinct -/

/-- The types of all files are distinct if those of the tables are, and the filters. -/
theorem nodup_typeNames_iff (h : parts.IsOf schema settings) (named : schema.registry.Named) :
    parts.typeNames.Nodup ↔
      ((TypesFile.usedFilters parts.blueprint.scalars parts.blueprint.schema.tables).keys ++
        parts.blueprint.schema.tables.flatMap TypesFile.typeNames).Nodup := by
  have named' := h.named named
  have hextra : (parts.schemaTypesFile?.toList.flatMap (·.exportedNames)).Nodup ∧
      List.Disjoint (TypesFile.file parts.blueprint).exportedNames
        (parts.schemaTypesFile?.toList.flatMap (·.exportedNames)) := by
    cases hfile : parts.schemaTypesFile? with
    | none => exact ⟨List.nodup_nil, List.disjoint_nil_right _⟩
    | some file =>
      have htop : ("schema-types", file) ∈ parts.topFiles := by simp [topFiles, hfile]
      rw [Option.toList_some, List.flatMap_singleton]
      exact ⟨nodup_exportedNames_of_mem_topFiles named' htop,
        fun name htypes hname => (h.not_mem_of_mem_schemaTypes named htop hname).1 htypes⟩
  have hdisjoint : List.Disjoint (TypesFile.definitions parts.blueprint).names
      ((TypesFile.usedFilters parts.blueprint.scalars parts.blueprint.schema.tables).keys ++
        parts.blueprint.schema.tables.flatMap TypesFile.typeNames) := by
    -- A type is entered only if no table and no filter has its name.
    intro name hdefined hown
    rw [TypesFile.definitions, Blueprint.definitions, Definitions.mem_names_of_iff] at hdefined
    refine hdefined.1.isOpen.2 (NameSet.mem_ofList.2 ?_)
    rw [List.mem_append, List.mem_flatMap] at hown ⊢
    rcases hown with hfilter | ⟨table, htable, hname⟩
    · exact .inr hfilter
    · exact .inl ⟨table, htable, List.mem_cons_of_mem _ hname⟩
  have hdefinitions : (TypesFile.definitions parts.blueprint).names.Nodup :=
    Definitions.nodup_names_of _
  rw [typeNames, List.nodup_append', and_iff_left hextra,
    (TypesFile.exportedNames_file_perm named').nodup_iff, List.nodup_append',
    and_iff_right hdefinitions, and_iff_left hdisjoint]

/-- All factories of a package have names that are made from those of tables. -/
theorem isNamed_of_mem_factories (h : parts.IsOf schema settings) :
    ∀ factory ∈ parts.blueprint.keys.factories, factory.IsNamed := by
  rw [h.blueprint_eq]
  intro factory hfactory
  obtain ⟨table, -, rfl⟩ := List.mem_map.1 hfactory
  exact KeyFactory.isNamed_ofTable _ table

/-- The names of the keys are distinct exactly if the keys keep apart, or are not shared. -/
theorem nodup_keyNames_iff (h : parts.IsOf schema settings) :
    parts.keyNames.Nodup ↔ (parts.blueprint.sharesKeys = true →
      parts.blueprint.keys.Apart parts.blueprint.settings.keys.mutationKeys) := by
  rw [keyNames]
  cases parts.blueprint.sharesKeys with
  | true =>
    rw [if_pos rfl, KeyStore.nodup_exportedNames_iff (isNamed_of_mem_factories h)]
    exact ⟨fun apart _ => apart, fun apart => apart rfl⟩
  | false =>
    rw [if_neg Bool.false_ne_true]
    exact ⟨fun _ => nofun, fun _ => List.nodup_nil⟩

/-- The names of the operations are distinct exactly if the operations keep apart. -/
theorem nodup_coreNames_iff :
    parts.coreNames.Nodup ↔
      ExportedOperation.Apart parts.blueprint.settings.hooks parts.operations :=
  ExportedOperation.nodup_coreNames_iff (Schema.kind_eq_of_firstRow _)

/-- Names of keys and names of operations never meet, so each kind has to be distinct alone. -/
theorem nodup_valueNames_iff (h : parts.IsOf schema settings) :
    parts.valueNames.Nodup ↔ parts.keyNames.Nodup ∧ parts.coreNames.Nodup := by
  have named := isNamed_of_mem_factories h
  have hfixed : List.Disjoint fixedNames parts.keyNames := by
    rw [keyNames]
    split
    · exact KeyStore.disjoint_fixedNames named _
    · exact List.disjoint_nil_right _
  have hcore : List.Disjoint (fixedNames ++ parts.keyNames) parts.coreNames := by
    intro name hname hcore
    obtain ⟨operation, -, hmem⟩ := List.mem_flatMap.1 hcore
    rcases List.mem_append.1 hname with hfixed | hkey
    · exact operation.coreNames_disjoint_fixedNames _ hmem hfixed
    · rw [keyNames] at hkey
      split at hkey
      · exact operation.coreNames_disjoint_keyNames _ named _ hmem hkey
      · cases hkey
  rw [valueNames, List.nodup_append', and_iff_left hcore, List.nodup_append',
    and_iff_right nodup_fixedNames, and_iff_left hfixed]

/-- The exports of a package are distinct exactly if those of each kind are, and no two kinds
meet. -/
theorem nodup_exports_iff (h : parts.IsOf schema settings) (named : schema.registry.Named) :
    parts.package.exports.Nodup ↔ parts.Distinct := by
  rw [(exports_perm h).nodup_iff, List.nodup_append', List.nodup_append',
    nodup_typeNames_iff h named, nodup_valueNames_iff h, nodup_keyNames_iff h, nodup_coreNames_iff]
  constructor
  · rintro ⟨htypes, ⟨⟨hkeys, hoperations⟩, haccessors, hdisjoint⟩, hdisjoint'⟩
    exact ⟨htypes, hoperations, hkeys, haccessors, fun name hname hvalue => hdisjoint hvalue hname,
      fun name hname => ⟨fun hvalue => hdisjoint' hname (List.mem_append_left _ hvalue),
        fun haccessor => hdisjoint' hname (List.mem_append_right _ haccessor)⟩⟩
  · intro h
    refine ⟨h.types, ⟨⟨h.keys, h.operations⟩, h.accessors,
      fun name hvalue hname => h.accessor name hname hvalue⟩, fun name htype hname => ?_⟩
    obtain ⟨hvalue, haccessor⟩ := h.type name htype
    exact (List.mem_append.1 hname).elim hvalue haccessor

/-- The types of all files are those of the types file, and those for custom operations. -/
theorem mem_typeNames_iff (h : parts.IsOf schema settings) (named : schema.registry.Named)
    (name : String) :
    name ∈ parts.typeNames ↔
      name ∈ (TypesFile.file parts.blueprint).exportedNames ∨ parts.DefinesForCustom name := by
  have named' := h.named named
  rw [typeNames, List.mem_append, List.mem_flatMap, ← exists_schemaTypes_iff named']
  simp [topFiles]

end Parts

/-- All artifacts of a package are reached from its index, and the names that they export are
distinct exactly if the names can be told apart that the schema gives. -/
theorem exports_nodup_iff {schema : Schema} {settings : Settings} {package : Package}
    (names : ∀ p ∈ schema.operationFields, ∀ field ∈ p.2, isName field = true)
    (named : schema.registry.Named) (h : of schema settings = .ok package) :
    (∀ artifact ∈ package.artifacts, package.Reached artifact) ∧
      ∃ parts, Parts.of schema settings = .ok parts ∧
        (package.exports.Nodup ↔ parts.Distinct) := by
  obtain ⟨parts, hparts, rfl⟩ := exists_parts_of_eq_ok h
  have isOf := Parts.isOf_of_eq_ok hparts
  refine ⟨fun artifact hartifact => ?_, parts, hparts, Parts.nodup_exports_iff isOf named⟩
  exact Parts.reached_of_isName isOf names hartifact

end Package

namespace Sample

/-- Users. -/
def userTable : Table where
  name := "User"
  fields := [⟨"id", (TypeRef.scalar "UUID").required, none⟩, ⟨"name", .scalar "String", none⟩]

/-- Users, and an operation that gives the name of one of them. -/
def userSchema (operation : String) : Schema where
  tables := [userTable]
  queries := [⟨operation, .query, [], .scalar "String", none⟩]

/-- The registry of the example has its types under their names. -/
theorem named_userSchema (operation : String) : (userSchema operation).registry.Named :=
  TypeRegistry.named_ofList []

/-- The operations of a client for the users. -/
theorem exportedOperations_newestUser :
    (userSchema "newestUser").exportedOperations =
      [⟨⟨"Users", .query⟩, .table⟩, ⟨⟨"FirstUser", .query⟩, .firstRow⟩, ⟨⟨"User", .query⟩, .table⟩,
        ⟨⟨"CreateUser", .mutation⟩, .table⟩, ⟨⟨"UpdateUser", .mutation⟩, .table⟩,
        ⟨⟨"DeleteUser", .mutation⟩, .table⟩, ⟨⟨"NewestUser", .query⟩, .custom⟩] := by
  decide +kernel

/-- The types that a client defines for the users. -/
theorem typeNames_userTable :
    TypesFile.typeNames userTable =
      ["User", "UserWithRelations", "UserSelect", "UserFilter", "UsersOrderBy", "UserInput",
        "CreateUserInput", "UserPatch", "UpdateUserInput", "DeleteUserInput"] := by
  decide +kernel

section NewestUser

variable {parts : Package.Parts} (isOf : parts.IsOf (userSchema "newestUser") {})
  (noMention : parts.customMentions = [])
include isOf noMention

/-- The client defines types for the users only. -/
theorem mem_typeNames_newestUser : ∀ name ∈ parts.typeNames,
    name ∈ ["UUIDFilter", "StringFilter"] ++ TypesFile.typeNames userTable := by
  intro name hname
  rw [Package.Parts.mem_typeNames_iff isOf (named_userSchema _)] at hname
  rcases hname with hname | ⟨reached, -⟩
  · rw [isOf.blueprint_eq, TypesFile.mem_exportedNames_file_iff (named_userSchema _)] at hname
    rcases hname with hname | hname | ⟨table, htable, hname⟩
    · rw [TypesFile.definitions, Blueprint.definitions, Definitions.mem_names_of_iff] at hname
      exact absurd rfl hname.1.roots_ne_nil
    · exact List.mem_append_left _ hname
    · rw [List.mem_singleton.1 htable] at hname
      exact List.mem_append_right _ hname
  · exact absurd noMention reached.roots_ne_nil

/-- With another name for the query the exports of the example are distinct. -/
theorem distinct_newestUser : parts.Distinct := by
  have hblueprint := isOf.blueprint_eq
  have hoperations : parts.operations = _ :=
    (congrArg (·.schema.exportedOperations) hblueprint).trans exportedOperations_newestUser
  have htypes := mem_typeNames_newestUser isOf noMention
  have haccessors : parts.accessors = ["fetchUsers", "fetchFirstUser", "fetchUser", "createUser",
      "updateUser", "deleteUser"] := by
    rw [Package.Parts.accessors, hoperations]
    decide +kernel
  have apart : ∀ name ∈ ["UUIDFilter", "StringFilter"] ++ TypesFile.typeNames userTable ++
      ["fetchUsers", "fetchFirstUser", "fetchUser", "createUser", "updateUser", "deleteUser"],
        name ∉ parts.valueNames := by
    rw [Package.Parts.valueNames, Package.Parts.keyNames, Package.Parts.coreNames, hoperations,
      hblueprint, typeNames_userTable]
    decide +kernel
  have apart' : ∀ name ∈ ["UUIDFilter", "StringFilter"] ++ TypesFile.typeNames userTable,
      name ∉ ["fetchUsers", "fetchFirstUser", "fetchUser", "createUser", "updateUser",
        "deleteUser"] := by
    rw [typeNames_userTable]
    decide +kernel
  constructor
  · rw [hblueprint]
    show (_ ++ (TypesFile.typeNames userTable ++ [])).Nodup
    rw [typeNames_userTable]
    decide +kernel
  · rw [hoperations]
    refine ⟨?_, fun _ => ?_⟩
    all_goals decide +kernel
  · rw [hblueprint]
    refine fun _ => ⟨?_, ?_, fun _ => ?_, fun _ => ?_, ?_⟩
    all_goals decide +kernel
  · rw [haccessors]
    decide +kernel
  · rw [haccessors]
    exact fun name hname => apart name (List.mem_append_right _ hname)
  · rw [haccessors]
    exact fun name hname => ⟨apart name (List.mem_append_left _ (htypes name hname)),
      apart' name (htypes name hname)⟩

end NewestUser

/-- The names that a client for the users exports are distinct if the operation is called
`newestUser`. -/
theorem newestUser_exports_nodup :
    ∃ package, Package.of (userSchema "newestUser") {} = .ok package ∧ package.exports.Nodup := by
  obtain ⟨parts, hparts⟩ : ∃ parts, Package.Parts.of (userSchema "newestUser") {} = .ok parts :=
    Package.exists_parts_of_unconfigured _ _ (fun _ => rfl) (fun _ => rfl)
  have hof := Package.of_eq_ok hparts
  have isOf := Package.Parts.isOf_of_eq_ok hparts
  have noMention : parts.customMentions = [] := isOf.customMentions_eq rfl rfl
  obtain ⟨-, parts', hparts', hiff⟩ :=
    Package.exports_nodup_iff (by decide +kernel) (named_userSchema _) hof
  obtain rfl : parts = parts' := Except.ok.inj (hparts.symm.trans hparts')
  exact ⟨parts.package, hof, hiff.2 (distinct_newestUser isOf noMention)⟩

/-- The root fields for the users and that of the operation are distinct, also in Pascal case. Yet
the operation `firstUser` is called like the query for the first row of the users. -/
theorem firstUser_exports_not_nodup :
    (((userSchema "firstUser").operationFields.flatMap Prod.snd).map Text.pascalCase).Nodup ∧
      ((userSchema "firstUser").tables.map (·.entityNames.typeName)).Nodup ∧
      ∃ package, Package.of (userSchema "firstUser") {} = .ok package ∧
        ¬ package.exports.Nodup := by
  refine ⟨by decide +kernel, by decide, ?_⟩
  obtain ⟨parts, hparts⟩ : ∃ parts, Package.Parts.of (userSchema "firstUser") {} = .ok parts :=
    Package.exists_parts_of_unconfigured _ _ (fun _ => rfl) (fun _ => rfl)
  refine ⟨parts.package, Package.of_eq_ok hparts, fun hnodup => ?_⟩
  have isOf := Package.Parts.isOf_of_eq_ok hparts
  have hcamel := ((Package.Parts.nodup_exports_iff isOf (named_userSchema _)).1
    hnodup).operations.camel
  rw [Package.Parts.operations, isOf.blueprint_eq] at hcamel
  revert hcamel
  decide +kernel

end Sample

end GraphClient
