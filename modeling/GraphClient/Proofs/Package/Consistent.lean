import GraphClient.Proofs.Package.Imports
import GraphClient.Proofs.Package.Place

/-!
# Consistent parts

What has to hold of the parts of a package so that its imports resolve, and what the package then
consists of: the definitions of the file of schema types, and the artifacts with their places.

* `Package.Parts.DefinesForCustom` : the file of schema types defines a name.
* `Package.Parts.Consistent` : the parts fit together.
* `Schema.OperationIn` : the custom operations with the directories of their files.
* `Package.Parts.cases_of_mem_artifacts` : what the artifacts of a package are.
-/

namespace GraphClient

open TypeScript (ImportSet SourceFile)

/-- A custom operation of the schema has its file in a directory. -/
inductive Schema.OperationIn (schema : Schema) : String → CustomOperation → Prop
  | query {operation : CustomOperation} (mem : operation ∈ schema.queries) :
      schema.OperationIn "custom-queries" operation
  | mutation {operation : CustomOperation} (mem : operation ∈ schema.mutations) :
      schema.OperationIn "custom-mutations" operation

namespace Package

namespace Parts

/-! ## What has to hold -/

/-- All that the files of custom operations mention. -/
def customMentions (parts : Parts) : List String :=
  (parts.customQueries ++ parts.customMutations).flatMap (·.2.mentions)

/-- All that the files of tables mention. -/
def tableMentions (parts : Parts) : List String :=
  parts.tables.flatMap fun entries =>
    (entries.queries ++ entries.mutations).flatMap (·.fragment.mentions)

/-- A name is defined for custom operations: it can be reached from what they mention, and is no
scalar. -/
def DefinesForCustom (parts : Parts) (name : String) : Prop :=
  Definitions.Reached parts.blueprint.schema.registry parts.defined parts.customMentions name ∧
    ¬ parts.blueprint.schema.registry.IsScalar name

/-- A name is mentioned by an operation, or by a type that is defined for custom operations. -/
def Mentioned (parts : Parts) (name : String) : Prop :=
  name ∈ parts.customMentions ∨ name ∈ parts.tableMentions ∨
    ∃ source, parts.DefinesForCustom source ∧
      Definitions.Mentions parts.blueprint.schema.registry source name

/-- The parts fit together. A file of an operation stands in a directory at the top. The types file
exports the own name of a table, if it is mentioned. A type that a custom operation mentions and
the types file lacks is no scalar. A type that a file of a table mentions and the types file lacks
is defined for custom operations. -/
structure Consistent (parts : Parts) : Prop where
  oneDeep : ∀ directory field fragment, parts.Operation directory field fragment →
    ∃ file around, Place.ofPath (Place.inside directory field) = some [file, around]
  ownNames : ∀ table ∈ parts.blueprint.schema.tables, isBuiltinType table.name = false →
    parts.Mentioned table.name →
      table.name ∈ (TypesFile.file parts.blueprint).exportedNames
  customTypes : ∀ name ∈ parts.customMentions, Definitions.IsOpen parts.defined name →
    ¬ parts.blueprint.schema.registry.IsScalar name
  tableTypes : ∀ name ∈ parts.tableMentions, Definitions.IsOpen parts.defined name →
    parts.DefinesForCustom name

variable {parts : Parts}

/-- What custom operations mention, read off their fragments. The tables of the schema and their
files have no say in it. -/
theorem IsOf.customMentions_eq {schema : Schema} {settings : Settings}
    (h : parts.IsOf schema settings) {queries mutations : List (CustomOperation × Fragment)}
    (hqueries : CustomFiles.fragments (.of schema settings) schema.queries = .ok queries)
    (hmutations : CustomFiles.fragments (.of schema settings) schema.mutations = .ok mutations) :
    parts.customMentions = (queries ++ mutations).flatMap (·.2.mentions) := by
  have hcustomQueries := h.queries_eq
  have hcustomMutations := h.mutations_eq
  rw [h.blueprint_eq] at hcustomQueries hcustomMutations
  rw [customMentions, Except.ok.inj (hcustomQueries.symm.trans hqueries),
    Except.ok.inj (hcustomMutations.symm.trans hmutations)]

/-! ## The file of schema types -/

/-- What the file of schema types starts from. -/
def customRoots (parts : Parts) : NameSet :=
  (CustomFiles.schemaTypes parts.defined parts.customQueries).insertAll
    (CustomFiles.schemaTypes parts.defined parts.customMutations).names

/-- The walk over custom types begins at what custom operations mention and nothing else defines. -/
theorem mem_customRoots_iff (name : String) :
    name ∈ parts.customRoots ↔
      name ∈ parts.customMentions ∧ Definitions.IsOpen parts.defined name := by
  -- Queries and mutations contribute in the same way.
  have hfragments : ∀ fragments : List (CustomOperation × Fragment),
      name ∈ CustomFiles.schemaTypes parts.defined fragments ↔
        name ∈ fragments.flatMap (·.2.mentions) ∧ Definitions.IsOpen parts.defined name := by
    intro fragments
    simp only [CustomFiles.schemaTypes, NameSet.mem_ofList, List.mem_flatMap, Fragment.references,
      NameSet.mem_names, References.mem_schemaTypes_ofNames, Definitions.IsOpen]
    constructor
    · rintro ⟨p, hp, hmention, isOpen⟩
      exact ⟨⟨p, hp, hmention⟩, isOpen⟩
    · rintro ⟨⟨p, hp, hmention⟩, isOpen⟩
      exact ⟨p, hp, hmention, isOpen⟩
  simp only [customRoots, NameSet.mem_insertAll, NameSet.mem_names, hfragments, customMentions,
    List.flatMap_append, List.mem_append]
  rw [← or_and_right, or_comm]

/-- The definitions of the file of schema types are those for custom operations. -/
theorem definesForCustom_iff (name : String) :
    parts.DefinesForCustom name ↔
      name ∈ (parts.blueprint.definitions parts.defined parts.customRoots.names).names := by
  rw [Blueprint.definitions, Definitions.mem_names_of_iff, DefinesForCustom]
  refine and_congr_left fun _ => ⟨fun h => ?_, fun h => ?_⟩
  · exact h.mono fun x hx isOpen => (mem_customRoots_iff x).2 ⟨hx, isOpen⟩
  · exact h.mono fun x hx _ => ((mem_customRoots_iff x).1 hx).1

theorem schemaTypesFile?_eq : parts.schemaTypesFile? =
    CustomFiles.schemaTypesFile? parts.blueprint parts.defined parts.customRoots := rfl

/-- There is a file of custom types exactly if it has been made. -/
theorem mem_topFiles_schemaTypes_iff {file : SourceFile} :
    ("schema-types", file) ∈ parts.topFiles ↔
      CustomFiles.schemaTypesFile? parts.blueprint parts.defined parts.customRoots =
        some file := by
  rw [← schemaTypesFile?_eq]
  simp [topFiles]

/-- The file of schema types exports what is defined for custom operations. -/
theorem exists_schemaTypes_iff (named : parts.blueprint.schema.registry.Named) (name : String) :
    (∃ file, ("schema-types", file) ∈ parts.topFiles ∧ name ∈ file.exportedNames) ↔
      parts.DefinesForCustom name := by
  rw [definesForCustom_iff, ← CustomFiles.exists_schemaTypesFile?_iff named]
  simp only [mem_topFiles_schemaTypes_iff]

/-- The file of schema types holds the definitions for custom operations, and imports what these
leave to the types file. -/
theorem schemaTypes_of_mem_topFiles {file : SourceFile}
    (h : ("schema-types", file) ∈ parts.topFiles) :
    file.imports = (ImportSet.typesFrom "./types" (parts.blueprint.definitions parts.defined
      parts.customRoots.names).elsewhere.names).statements ∧
    file.items = (parts.blueprint.definitions parts.defined
      parts.customRoots.names).items.map Prod.snd := by
  rw [mem_topFiles_schemaTypes_iff, CustomFiles.schemaTypesFile?] at h
  split at h
  · cases h
  · rw [← Option.some.inj h]
    exact ⟨rfl, rfl⟩

/-- The definitions leave those names to the types file that they mention and that count as defined
there. -/
theorem mem_elsewhere_iff (name : String) :
    name ∈ (parts.blueprint.definitions parts.defined parts.customRoots.names).elsewhere ↔
      isBuiltinType name = false ∧ name ∈ parts.defined ∧ ∃ source,
        parts.DefinesForCustom source ∧
          Definitions.Mentions parts.blueprint.schema.registry source name := by
  rw [Blueprint.definitions, Definitions.mem_elsewhere_of_iff]
  refine and_congr_right fun _ => and_congr_right fun hdefined => ?_
  -- What the types file defines is no root.
  have hroot : name ∉ parts.customRoots.names :=
    fun hmem => ((mem_customRoots_iff name).1 hmem).2.2 hdefined
  simp only [hroot, false_or, definesForCustom_iff, Blueprint.definitions]

/-- The file of the table types is the only one of its name. -/
theorem eq_file_of_mem_topFiles {file : SourceFile} (h : ("types", file) ∈ parts.topFiles) :
    file = TypesFile.file parts.blueprint := by
  simpa [topFiles] using h

/-! ## The artifacts -/

/-- The names of the directories. -/
theorem name_of_mem_directories {directory : Directory} (h : directory ∈ parts.directories) :
    directory.name ∈ ["queries", "mutations", "custom-queries", "custom-mutations"] :=
  List.mem_map_of_mem h

/-- The name of a directory has no slash in it. -/
theorem slash_not_mem_of_mem_directories {directory : Directory}
    (h : directory ∈ parts.directories) : '/' ∉ directory.name.toList := by
  have hplain : ∀ name ∈ ["queries", "mutations", "custom-queries", "custom-mutations"],
      '/' ∉ name.toList := by decide
  exact hplain directory.name (name_of_mem_directories h)

/-- The files in a directory belong to operations. -/
theorem exists_operation_of_mem_files {directory : Directory}
    (hdirectory : directory ∈ parts.directories) {p : String × SourceFile}
    (hp : p ∈ directory.files) :
    ∃ fragment description, parts.Operation directory.name p.1 fragment ∧
      p.2 = fragment.file parts.defined description := by
  simp only [directories, List.mem_cons, List.not_mem_nil, or_false] at hdirectory
  rcases hdirectory with rfl | rfl | rfl | rfl
  · simp only [List.mem_flatMap, List.mem_map] at hp
    obtain ⟨entries, hentries, entry, hentry, rfl⟩ := hp
    exact ⟨_, _, .tableQuery hentries hentry, rfl⟩
  · simp only [List.mem_flatMap, List.mem_map] at hp
    obtain ⟨entries, hentries, entry, hentry, rfl⟩ := hp
    exact ⟨_, _, .tableMutation hentries hentry, rfl⟩
  · obtain ⟨q, hq, rfl⟩ := List.mem_map.1 hp
    exact ⟨_, _, .customQuery hq, rfl⟩
  · obtain ⟨q, hq, rfl⟩ := List.mem_map.1 hp
    exact ⟨_, _, .customMutation hq, rfl⟩

/-- A file of a package stands at the top, or belongs to an operation, or is an index. -/
theorem cases_of_mem_artifacts {artifact : Artifact} (h : artifact ∈ parts.artifacts) :
    (∃ p ∈ parts.topFiles, artifact = ⟨p.1 ++ ".ts", p.2⟩) ∨
    (∃ directory field fragment description, parts.Operation directory field fragment ∧
      artifact = ⟨Place.inside directory field, fragment.file parts.defined description⟩) ∨
    (∃ directory ∈ ["queries", "mutations", "custom-queries", "custom-mutations"], ∃ sources,
      artifact = ⟨directory ++ "/index.ts", barrel "Barrel" sources⟩) ∨
    artifact = ⟨"index.ts", parts.index⟩ := by
  simp only [artifacts, List.mem_append, List.mem_map, List.mem_flatMap, List.mem_singleton] at h
  rcases h with (⟨p, hp, rfl⟩ | ⟨directory, hdirectory, h⟩) | rfl
  · exact .inl ⟨p, hp, rfl⟩
  · -- A directory without files has no index either.
    rw [Directory.artifacts] at h
    split at h
    · simp at h
    · simp only [List.mem_append, List.mem_map, List.mem_singleton] at h
      rcases h with ⟨p, hp, rfl⟩ | rfl
      · obtain ⟨fragment, description, operation, hfile⟩ :=
          exists_operation_of_mem_files hdirectory hp
        rw [hfile]
        exact .inr (.inl ⟨_, _, _, _, operation, rfl⟩)
      · exact .inr (.inr (.inl ⟨directory.name, name_of_mem_directories hdirectory, _, rfl⟩))
  · exact .inr (.inr (.inr rfl))

/-- Every file at the top is an artifact. -/
theorem mem_artifacts_of_mem_topFiles {p : String × SourceFile} (h : p ∈ parts.topFiles) :
    ⟨p.1 ++ ".ts", p.2⟩ ∈ parts.artifacts := by
  simp only [artifacts, List.mem_append, List.mem_map]
  exact .inl (.inl ⟨p, h, rfl⟩)

/-- Every file of a directory is an artifact. -/
theorem mem_artifacts_of_mem_directory {directory : Directory}
    (hdirectory : directory ∈ parts.directories) (p : String × SourceFile)
    (h : p ∈ directory.files) : ⟨Place.inside directory.name p.1, p.2⟩ ∈ parts.artifacts := by
  have hfile : ⟨Place.inside directory.name p.1, p.2⟩ ∈ directory.artifacts := by
    rw [Directory.artifacts, if_neg]
    · exact List.mem_append_left _ (List.mem_map.2 ⟨p, h, rfl⟩)
    · rw [Directory.isEmpty, List.isEmpty_iff]
      exact List.ne_nil_of_mem h
  simp only [artifacts, List.mem_append, List.mem_flatMap]
  exact .inl (.inr ⟨directory, hdirectory, hfile⟩)

/-- Every operation has its file in a directory. -/
theorem exists_file_of_operation {directory field : String} {fragment : Fragment}
    (operation : parts.Operation directory field fragment) :
    ∃ d ∈ parts.directories, d.name = directory ∧
      ∃ description, (field, fragment.file parts.defined description) ∈ d.files := by
  cases operation with
  | @tableQuery entries entry table mem =>
    exact ⟨_, .head _, rfl, entry.description, List.mem_flatMap.2
      ⟨entries, table, List.mem_map.2 ⟨entry, mem, rfl⟩⟩⟩
  | @tableMutation entries entry table mem =>
    exact ⟨_, .tail _ (.head _), rfl, entry.description, List.mem_flatMap.2
      ⟨entries, table, List.mem_map.2 ⟨entry, mem, rfl⟩⟩⟩
  | @customQuery p mem =>
    exact ⟨_, .tail _ (.tail _ (.head _)), rfl, CustomFiles.description p.1,
      List.mem_map.2 ⟨p, mem, rfl⟩⟩
  | @customMutation p mem =>
    exact ⟨_, .tail _ (.tail _ (.tail _ (.head _))), rfl, CustomFiles.description p.1,
      List.mem_map.2 ⟨p, mem, rfl⟩⟩

/-- The file of every operation is an artifact. -/
theorem exists_artifact_of_operation {directory field : String} {fragment : Fragment}
    (operation : parts.Operation directory field fragment) :
    ∃ description, ⟨Place.inside directory field, fragment.file parts.defined description⟩ ∈
      parts.artifacts := by
  obtain ⟨d, hd, rfl, description, hfile⟩ := exists_file_of_operation operation
  exact ⟨description, mem_artifacts_of_mem_directory hd _ hfile⟩

/-- Every custom operation of the schema has its file, which is described as the operation is. -/
theorem exists_artifact_of_operationIn {schema : Schema} {settings : Settings}
    (h : parts.IsOf schema settings) {directory : String} {operation : CustomOperation}
    (hoperation : schema.OperationIn directory operation) :
    ∃ template, Request.custom (.ofSchema schema settings.page) settings operation none none =
        .ok template ∧
      ⟨Place.inside directory operation.name,
        (CustomFiles.fragment (.of schema settings) operation template).file parts.defined
          (CustomFiles.description operation)⟩ ∈ parts.artifacts := by
  have hqueries := h.queries_eq
  have hmutations := h.mutations_eq
  rw [h.blueprint_eq] at hqueries hmutations
  cases hoperation with
  | query mem =>
    obtain ⟨made, hmem, hmade⟩ := exists_mem_of_mapM hqueries mem
    obtain ⟨template, htemplate, rfl⟩ := exists_template_of_made hmade
    have hdirectory : ⟨"custom-queries", parts.customQueries.map parts.customFile⟩ ∈
        parts.directories := .tail _ (.tail _ (.head _))
    have hartifact := mem_artifacts_of_mem_directory hdirectory _ (List.mem_map_of_mem hmem)
    exact ⟨template, htemplate, hartifact⟩
  | mutation mem =>
    obtain ⟨made, hmem, hmade⟩ := exists_mem_of_mapM hmutations mem
    obtain ⟨template, htemplate, rfl⟩ := exists_template_of_made hmade
    have hdirectory : ⟨"custom-mutations", parts.customMutations.map parts.customFile⟩ ∈
        parts.directories := .tail _ (.tail _ (.tail _ (.head _)))
    have hartifact := mem_artifacts_of_mem_directory hdirectory _ (List.mem_map_of_mem hmem)
    exact ⟨template, htemplate, hartifact⟩

/-- Where its name has no slashes, the file of an operation stands one directory deep. -/
theorem Operation.ofPath_inside {directory field : String} {fragment : Fragment}
    (operation : parts.Operation directory field fragment) (h : '/' ∉ field.toList) :
    Place.ofPath (Place.inside directory field) =
      some [field.toList ++ ['.', 't', 's'], directory.toList] := by
  refine Place.ofPath_inside ?_ h
  cases operation <;> decide

/-- The files at the top have plain names, and no two of them have the same. -/
theorem nodup_topFiles : (parts.topFiles.map Prod.fst).Nodup := by
  cases h : parts.schemaTypesFile? <;> cases h' : parts.blueprint.sharesKeys <;>
    cases h'' : parts.blueprint.sharesMutationKeys <;>
    simp [topFiles, h, h', h'']

/-- The names of the files at the top, as far as they are there. -/
theorem name_of_mem_topFiles {p : String × SourceFile} (h : p ∈ parts.topFiles) :
    p.1 ∈ ["select-types", "types", "schema-types", "client", "query-keys", "mutation-keys"] := by
  simp only [topFiles, List.mem_append, List.mem_cons, List.not_mem_nil, or_false,
    List.mem_map, Option.mem_toList] at h
  rcases h with ((((rfl | rfl) | ⟨file, -, rfl⟩) | rfl) | h) | h
  · simp
  · simp
  · simp
  · simp
  · split at h <;> simp_all
  · split at h <;> simp_all

/-- The name of a file at the top has no slash in it. -/
theorem slash_not_mem_of_mem_topFiles {p : String × SourceFile} (h : p ∈ parts.topFiles) :
    '/' ∉ p.1.toList := by
  have hplain : ∀ name ∈ ["select-types", "types", "schema-types", "client", "query-keys",
      "mutation-keys"], '/' ∉ name.toList := by decide
  exact hplain p.1 (name_of_mem_topFiles h)

/-- The place of a file at the top. -/
theorem ofPath_of_mem_topFiles {p : String × SourceFile} (h : p ∈ parts.topFiles) :
    Place.ofPath (p.1 ++ ".ts") = some [p.1.toList ++ ['.', 't', 's']] :=
  Place.ofPath_top (slash_not_mem_of_mem_topFiles h)

/-- The index of a directory stands in the directory. -/
theorem ofPath_index {directory : String}
    (h : directory ∈ ["queries", "mutations", "custom-queries", "custom-mutations"]) :
    Place.ofPath (directory ++ "/index.ts") = some ["index.ts".toList, directory.toList] := by
  revert directory
  decide +kernel

/-- Where operations stand one directory below the top, only the files at the top stand there. -/
theorem mem_topFiles_of_ofPath
    (oneDeep : ∀ directory field fragment, parts.Operation directory field fragment →
      ∃ file around, Place.ofPath (Place.inside directory field) = some [file, around])
    {artifact : Artifact} (h : artifact ∈ parts.artifacts) {name : String}
    (hname : name ≠ "index")
    (hplace : Place.ofPath artifact.path = some [name.toList ++ ['.', 't', 's']]) :
    (name, artifact.file) ∈ parts.topFiles := by
  rcases cases_of_mem_artifacts h with ⟨p, hp, rfl⟩ |
    ⟨directory, field, fragment, description, operation, rfl⟩ |
    ⟨directory, hdirectory, sources, rfl⟩ | rfl
  · rw [ofPath_of_mem_topFiles hp] at hplace
    have heq : p.1.toList = name.toList := by simpa using hplace
    exact String.toList_inj.1 heq ▸ hp
  · obtain ⟨file, around, hdeep⟩ := oneDeep directory field fragment operation
    simp [hdeep] at hplace
  · simp [ofPath_index hdirectory] at hplace
  · have hindex : Place.ofPath "index.ts" = some ["index".toList ++ ['.', 't', 's']] := by decide
    rw [hindex] at hplace
    have heq : "index".toList = name.toList :=
      List.append_cancel_right (List.cons.inj (Option.some.inj hplace)).1
    exact absurd (String.toList_inj.1 heq).symm hname

end Parts

end Package

end GraphClient
