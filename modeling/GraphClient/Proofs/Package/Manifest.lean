import GraphClient.Proofs.Document.Literal
import GraphClient.Proofs.Package.Contents
import GraphClient.Proofs.Package.Needs
import GraphClient.Proofs.Package.Resolution
import Mathlib.Data.List.TakeWhile

/-!
# The manifest of a package

Which files a package has, in which order, what each of them re-exports, and the numbers about them.
The presence of a file is decided in three places: where the file is made, where the index of the
package lists it, and where it is counted. They agree.

* `Manifest.expected` : the paths of a package and what the files re-export.
* `Package.Reached` : what can be reached from the index of a package.
* `Package.manifest_complete` : a package has the files that it should have, and all of them can be
  reached.
-/

namespace GraphClient

open TypeScript (SourceFile)

/-! ## What a package should have -/

/-- The names of the files at the top, apart from the index. `extraTypes` tells whether custom
operations need types of their own. -/
def Settings.topNames (settings : Settings) (extraTypes : Bool) : List String :=
  ["select-types", "types"] ++ (if extraTypes then ["schema-types"] else []) ++ ["client"] ++
    if settings.keys.style == .centralized then
      "query-keys" :: if settings.keys.mutationKeys then ["mutation-keys"] else []
    else []

namespace Manifest

/-- A directory with its files, which re-export nothing, and its index, which re-exports them. A
directory without files has no index. -/
def directory (name : String) (fields : List String) : List (String × List String) :=
  if fields.isEmpty then []
  else
    fields.map (fun field => (Place.inside name field, [])) ++
      [(name ++ "/index.ts", fields.map ("./" ++ ·))]

/-- The files at the top, which re-export nothing, the directories, and the index, which re-exports
the former and those of the latter that have files. -/
def expected (top : List String) (directories : List (String × List String)) :
    List (String × List String) :=
  top.map (fun name => (name ++ ".ts", [])) ++
    directories.flatMap (fun p => directory p.1 p.2) ++
    [("index.ts",
      (top ++ (directories.filter fun p => !p.2.isEmpty).map Prod.fst).map ("./" ++ ·))]

end Manifest

namespace Package

/-- The paths of a package in order, each with what its file re-exports. -/
def outline (package : Package) : List (String × List String) :=
  package.artifacts.map fun artifact => (artifact.path, artifact.file.reExports)

/-- Where a re-export of the file at a path leads: to the file that is called like its source, or to
the index of the directory that is, if there is no such file. -/
inductive Leads (package : Package) (path source : String) : Artifact → Prop
  | file {target : Artifact} {place : Place} (mem : target ∈ package.artifacts)
      (leads : Place.ofImport path source = some place)
      (stands : Place.ofPath target.path = some place) : Leads package path source target
  | index {target : Artifact} {place : Place} (mem : target ∈ package.artifacts)
      (noFile : ∀ other ∈ package.artifacts,
        Place.ofPath other.path ≠ Place.ofImport path source)
      (leads : Place.ofImport path (source ++ "/index") = some place)
      (stands : Place.ofPath target.path = some place) : Leads package path source target

/-- An artifact is reached from the index of the package along re-exports. -/
inductive Reached (package : Package) : Artifact → Prop
  | index {artifact : Artifact} (mem : artifact ∈ package.artifacts)
      (path : artifact.path = "index.ts") : Reached package artifact
  | reExport {artifact target : Artifact} {source : String} (reached : Reached package artifact)
      (mem : source ∈ artifact.file.reExports)
      (leads : package.Leads artifact.path source target) : Reached package target

/-- The index of a directory, where it has one. -/
def Directory.index (directory : Directory) : Artifact :=
  ⟨directory.name ++ "/index.ts", barrel "Barrel" (directory.files.map fun p => lastSegment p.1)⟩

/-! ## What it has -/

/-- An index re-exports the files that it is made for. -/
theorem reExports_barrel (description : String) (sources : List String) :
    (barrel description sources).reExports = sources.map ("./" ++ ·) := by
  rw [SourceFile.reExports, barrel, List.filterMap_map, ← List.filterMap_eq_map]
  rfl

/-- A name without a slash is its own last segment. -/
theorem lastSegment_of_plain {name : String} (h : '/' ∉ name.toList) : lastSegment name = name := by
  have hkept : name.toList.reverse.takeWhile (· != '/') = name.toList.reverse := by
    refine List.takeWhile_eq_self_iff.2 fun c hc => ?_
    rw [bne_iff_ne]
    rintro rfl
    exact h (List.mem_reverse.1 hc)
  rw [lastSegment, hkept, List.reverse_reverse, String.ofList_toList]

/-- A name has no slashes. -/
theorem slash_not_mem_of_isName {name : String} (h : isName name = true) : '/' ∉ name.toList := by
  intro hslash
  have hchar := isNameChar_of_isName name h '/' hslash
  exact absurd hchar (by decide)

namespace Parts

variable {parts : Parts} {schema : Schema} {settings : Settings}

/-- The files at the top are those that the settings want. -/
theorem map_fst_topFiles (h : parts.IsOf schema settings) :
    parts.topFiles.map Prod.fst = settings.topNames parts.schemaTypesFile?.isSome := by
  rw [topFiles, Settings.topNames, Blueprint.sharesMutationKeys, Blueprint.sharesKeys, h.settings]
  cases parts.schemaTypesFile? <;> cases settings.keys.style == .centralized <;>
    cases settings.keys.mutationKeys <;> rfl

/-- The file of schema types is there exactly if custom operations need a definition. -/
theorem isSome_schemaTypesFile?_iff :
    parts.schemaTypesFile?.isSome = true ↔ ∃ name, parts.DefinesForCustom name := by
  have hitems : parts.schemaTypesFile?.isSome = true ↔
      (parts.blueprint.definitions parts.defined parts.customRoots.names).items ≠ [] := by
    rw [schemaTypesFile?_eq, CustomFiles.schemaTypesFile?, ← List.isEmpty_eq_false_iff]
    cases (parts.blueprint.definitions parts.defined parts.customRoots.names).items.isEmpty <;> simp
  rw [hitems]
  simp only [definesForCustom_iff, Definitions.names, List.mem_map]
  constructor
  · intro hne
    obtain ⟨p, hp⟩ := List.exists_mem_of_ne_nil _ hne
    exact ⟨p.1, p, hp, rfl⟩
  · rintro ⟨name, p, hp, -⟩
    exact List.ne_nil_of_mem hp

/-- The files of operations re-export nothing. -/
theorem reExports_of_mem_files (h : parts.IsOf schema settings) {directory : Directory}
    (hdirectory : directory ∈ parts.directories) {p : String × SourceFile}
    (hp : p ∈ directory.files) : p.2.reExports = [] := by
  obtain ⟨fragment, description, operation, hfile⟩ := exists_operation_of_mem_files hdirectory hp
  rw [hfile]
  exact SourceFile.reExports_eq_nil (plain_of_operation h operation).items

/-- The outline of a directory: its files re-export nothing, and its index re-exports them. -/
theorem outline_directory (h : parts.IsOf schema settings) {directory : Directory}
    (hdirectory : directory ∈ parts.directories)
    (plain : ∀ field ∈ directory.files.map Prod.fst, '/' ∉ field.toList) :
    directory.artifacts.map (fun artifact => (artifact.path, artifact.file.reExports)) =
      Manifest.directory directory.name (directory.files.map Prod.fst) := by
  rw [Directory.artifacts, Manifest.directory, List.isEmpty_map, Directory.isEmpty]
  split
  · rfl
  · have hfiles : directory.files.map (fun p => (directory.name ++ "/" ++ p.1 ++ ".ts",
        p.2.reExports)) = directory.files.map fun p => (Place.inside directory.name p.1, []) := by
      refine List.map_congr_left fun p hp => ?_
      rw [reExports_of_mem_files h hdirectory hp, Place.inside]
    have hindex : (directory.files.map fun p => lastSegment p.1) =
        directory.files.map Prod.fst := by
      refine List.map_congr_left fun p hp => ?_
      exact lastSegment_of_plain (plain p.1 (List.mem_map_of_mem hp))
    rw [List.map_append, List.map_map, List.map_map, List.map_singleton, reExports_barrel, hindex]
    exact congrArg (· ++ _) hfiles

/-- The outline of a package. -/
theorem outline_eq (h : parts.IsOf schema settings)
    (plain : ∀ p ∈ schema.operationFields, ∀ field ∈ p.2, '/' ∉ field.toList) :
    parts.package.outline =
      Manifest.expected (settings.topNames parts.schemaTypesFile?.isSome)
        schema.operationFields := by
  have htop : parts.topFiles.map (fun p => (p.1 ++ ".ts", p.2.reExports)) =
      (parts.topFiles.map Prod.fst).map fun name => (name ++ ".ts", []) := by
    rw [List.map_map]
    refine List.map_congr_left fun p hp => ?_
    rw [reExports_of_mem_topFiles hp]
    rfl
  have hdirectories : parts.directories.flatMap (fun directory => directory.artifacts.map
      fun artifact => (artifact.path, artifact.file.reExports)) =
        schema.operationFields.flatMap fun p => Manifest.directory p.1 p.2 := by
    rw [← map_directories h, List.flatMap_map]
    refine List.flatMap_congr fun directory hdirectory => ?_
    refine outline_directory h hdirectory fun field hfield => ?_
    refine plain (directory.name, directory.files.map Prod.fst) ?_ field hfield
    rw [← map_directories h]
    exact List.mem_map_of_mem hdirectory
  have hindex : (parts.directories.filter fun directory => !directory.isEmpty).map (·.name) =
      (schema.operationFields.filter fun p => !p.2.isEmpty).map Prod.fst := by
    rw [← map_directories h, List.filter_map, List.map_map]
    simp only [Function.comp_def, List.isEmpty_map, Directory.isEmpty]
  show parts.artifacts.map _ = _
  rw [artifacts, List.map_append, List.map_append, List.map_map, List.map_flatMap,
    List.map_singleton, hdirectories, index, reExports_barrel, hindex, map_fst_topFiles h,
    Manifest.expected, ← map_fst_topFiles h, ← htop]
  rfl

/-! ## What can be reached -/

/-- The index of the package is an artifact. -/
theorem mem_artifacts_index : ⟨"index.ts", parts.index⟩ ∈ parts.artifacts :=
  List.mem_append_right _ List.mem_cons_self

/-- Where the index of the package stands. -/
theorem ofPath_packageIndex : Place.ofPath "index.ts" = some ["index.ts".toList] := by decide

/-- The walk over re-exports begins at the index of the package. -/
theorem reached_index : parts.package.Reached ⟨"index.ts", parts.index⟩ :=
  .index mem_artifacts_index rfl

/-- The index re-exports the files at the top and all directories with files. -/
theorem mem_reExports_index {name : String}
    (h : name ∈ parts.topFiles.map Prod.fst ∨
      ∃ directory ∈ parts.directories, directory.isEmpty = false ∧ directory.name = name) :
    "./" ++ name ∈ parts.index.reExports := by
  rw [index, reExports_barrel]
  refine List.mem_map_of_mem (List.mem_append.2 ?_)
  rcases h with h | ⟨directory, hdirectory, hempty, rfl⟩
  · exact .inl h
  · refine .inr (List.mem_map_of_mem (List.mem_filter.2 ⟨hdirectory, ?_⟩))
    rw [hempty]
    rfl

/-- A file at the top is reached from the index of the package. -/
theorem reached_of_mem_topFiles {p : String × SourceFile} (h : p ∈ parts.topFiles) :
    parts.package.Reached ⟨p.1 ++ ".ts", p.2⟩ := by
  have hsource : "./" ++ p.1 ∈ parts.index.reExports :=
    mem_reExports_index (.inl (List.mem_map_of_mem h))
  refine .reExport reached_index hsource (.file (mem_artifacts_of_mem_topFiles h) ?_
    (ofPath_of_mem_topFiles h))
  exact Place.ofImport_beside ofPath_packageIndex (slash_not_mem_of_mem_topFiles h)

/-- A directory with files has an index. -/
theorem mem_artifacts_directoryIndex {directory : Directory}
    (hdirectory : directory ∈ parts.directories) (hempty : directory.isEmpty = false) :
    directory.index ∈ parts.artifacts := by
  have hindex : directory.index ∈ directory.artifacts := by
    rw [Directory.artifacts, hempty, if_neg Bool.false_ne_true]
    exact List.mem_append_right _ List.mem_cons_self
  simp only [artifacts, List.mem_append, List.mem_flatMap]
  exact .inl (.inr ⟨directory, hdirectory, hindex⟩)

/-- The index of a directory with files is reached from the index of the package: no file at the
top is called like a directory. -/
theorem reached_directoryIndex
    (oneDeep : ∀ directory field fragment, parts.Operation directory field fragment →
      ∃ file around, Place.ofPath (Place.inside directory field) = some [file, around])
    {directory : Directory} (hdirectory : directory ∈ parts.directories)
    (hempty : directory.isEmpty = false) : parts.package.Reached directory.index := by
  have hname := name_of_mem_directories hdirectory
  have hsource : "./" ++ directory.name ∈ parts.index.reExports :=
    mem_reExports_index (.inr ⟨directory, hdirectory, hempty, rfl⟩)
  have hfile : Place.ofImport "index.ts" ("./" ++ directory.name) =
      some [directory.name.toList ++ ['.', 't', 's']] :=
    Place.ofImport_beside ofPath_packageIndex (slash_not_mem_of_mem_directories hdirectory)
  have hleads : ∀ name ∈ ["queries", "mutations", "custom-queries", "custom-mutations"],
      Place.ofImport "index.ts" ("./" ++ name ++ "/index") =
        some ["index.ts".toList, name.toList] := by decide +kernel
  have hother : ∀ name ∈ ["queries", "mutations", "custom-queries", "custom-mutations"],
      name ∉ ["index", "select-types", "types", "schema-types", "client", "query-keys",
        "mutation-keys"] := by decide
  have hnotTop := hother _ hname
  rw [List.mem_cons, not_or] at hnotTop
  refine .reExport reached_index hsource (.index (mem_artifacts_directoryIndex hdirectory hempty)
    ?_ (hleads _ hname) (ofPath_index hname))
  -- A file that the source stood for would be one of those at the top.
  intro artifact hartifact hplace
  rw [hfile] at hplace
  have htop := mem_topFiles_of_ofPath oneDeep hartifact hnotTop.1 hplace
  exact hnotTop.2 (name_of_mem_topFiles htop)

/-- A file in a directory is reached from the index of the directory. -/
theorem reached_of_mem_files {directory : Directory} (hdirectory : directory ∈ parts.directories)
    (reached : parts.package.Reached directory.index)
    (plain : ∀ p ∈ directory.files, '/' ∉ p.1.toList) {p : String × SourceFile}
    (hp : p ∈ directory.files) :
    parts.package.Reached ⟨Place.inside directory.name p.1, p.2⟩ := by
  have hname := name_of_mem_directories hdirectory
  have hdirectoryPlace : Place.ofPath directory.name = some [directory.name.toList] := by
    revert hname
    generalize directory.name = name
    revert name
    decide
  have hsource : "./" ++ p.1 ∈ directory.index.file.reExports := by
    rw [Directory.index, reExports_barrel]
    refine List.mem_map_of_mem (List.mem_map.2 ⟨p, hp, ?_⟩)
    exact lastSegment_of_plain (plain p hp)
  refine .reExport reached hsource (.file (mem_artifacts_of_mem_directory hdirectory p hp) ?_
    (Place.ofPath_inside hdirectoryPlace (plain p hp)))
  exact Place.ofImport_beside (ofPath_index hname) (plain p hp)

/-- All artifacts are reached from the index of the package. -/
theorem reached_of_mem_artifacts
    (plain : ∀ directory ∈ parts.directories, ∀ p ∈ directory.files, '/' ∉ p.1.toList)
    {artifact : Artifact} (h : artifact ∈ parts.artifacts) : parts.package.Reached artifact := by
  have oneDeep : ∀ directory field fragment, parts.Operation directory field fragment →
      ∃ file around, Place.ofPath (Place.inside directory field) = some [file, around] := by
    intro directory field fragment operation
    obtain ⟨d, hd, -, description, hfile⟩ := exists_file_of_operation operation
    exact ⟨_, _, operation.ofPath_inside (plain d hd _ hfile)⟩
  simp only [artifacts, List.mem_append, List.mem_map, List.mem_flatMap, List.mem_singleton] at h
  rcases h with (⟨p, hp, rfl⟩ | ⟨directory, hdirectory, hmem⟩) | rfl
  · exact reached_of_mem_topFiles hp
  · cases hempty : directory.isEmpty with
    | true =>
      rw [Directory.artifacts, hempty, if_pos rfl] at hmem
      cases hmem
    | false =>
      rw [Directory.artifacts, hempty, if_neg Bool.false_ne_true] at hmem
      have hreached := reached_directoryIndex oneDeep hdirectory hempty
      rcases List.mem_append.1 hmem with hmem | hmem
      · obtain ⟨p, hp, rfl⟩ := List.mem_map.1 hmem
        exact reached_of_mem_files hdirectory hreached (plain directory hdirectory) hp
      · rw [List.mem_singleton.1 hmem]
        exact hreached
  · exact reached_index

/-- All artifacts are reached from the index of the package if the root fields are names. -/
theorem reached_of_isName (h : parts.IsOf schema settings)
    (names : ∀ p ∈ schema.operationFields, ∀ field ∈ p.2, isName field = true)
    {artifact : Artifact} (hartifact : artifact ∈ parts.artifacts) :
    parts.package.Reached artifact := by
  refine reached_of_mem_artifacts (fun directory hdirectory p hp => ?_) hartifact
  have hfields : (directory.name, directory.files.map Prod.fst) ∈ schema.operationFields := by
    rw [← map_directories h]
    exact List.mem_map_of_mem hdirectory
  exact slash_not_mem_of_isName (names _ hfields p.1 (List.mem_map_of_mem hp))

/-- The counts are those of the tables, the hooks of all files, the custom operations and the
artifacts. -/
theorem stats_eq (h : parts.IsOf schema settings) :
    parts.stats = {
      tables := schema.tables.length
      hooks := if settings.hooks then
          5 * schema.tables.length + schema.queries.length + schema.mutations.length
        else 0
      customQueries := schema.queries.length
      customMutations := schema.mutations.length
      artifacts := parts.artifacts.length } := by
  rw [stats, hookCount_fragments h, h.tables, CustomFiles.length_of_fragments h.queries_eq,
    CustomFiles.length_of_fragments h.mutations_eq]

end Parts

/-- A package has the files that it should have, in their order: the file of schema types is there
exactly if custom operations need a definition, and a directory exactly if it has files. The index
of a directory re-exports its files in order, and the index of the package re-exports the files at
the top and the directories that are there; the other files re-export nothing. So all files can be
reached, and they are counted right: there are five hooks for each table and one for each custom
operation if hooks are wanted. -/
theorem manifest_complete {schema : Schema} {settings : Settings} {package : Package}
    (names : ∀ p ∈ schema.operationFields, ∀ field ∈ p.2, isName field = true)
    (h : of schema settings = .ok package) :
    (∃ parts extraTypes, Parts.of schema settings = .ok parts ∧
      (extraTypes = true ↔ ∃ name, parts.DefinesForCustom name) ∧
      package.outline =
        Manifest.expected (settings.topNames extraTypes) schema.operationFields) ∧
    (∀ artifact ∈ package.artifacts, package.Reached artifact) ∧
    package.stats = {
      tables := schema.tables.length
      hooks := if settings.hooks then
          5 * schema.tables.length + schema.queries.length + schema.mutations.length
        else 0
      customQueries := schema.queries.length
      customMutations := schema.mutations.length
      artifacts := package.artifacts.length } := by
  obtain ⟨parts, hparts, rfl⟩ := exists_parts_of_eq_ok h
  have isOf := Parts.isOf_of_eq_ok hparts
  have plain : ∀ p ∈ schema.operationFields, ∀ field ∈ p.2, '/' ∉ field.toList :=
    fun p hp field hfield => slash_not_mem_of_isName (names p hp field hfield)
  refine ⟨⟨parts, parts.schemaTypesFile?.isSome, hparts, Parts.isSome_schemaTypesFile?_iff,
    Parts.outline_eq isOf plain⟩, ?_, Parts.stats_eq isOf⟩
  intro artifact hartifact
  refine Parts.reached_of_mem_artifacts (fun directory hdirectory p hp => ?_) hartifact
  have hfields : (directory.name, directory.files.map Prod.fst) ∈ schema.operationFields := by
    rw [← Parts.map_directories isOf]
    exact List.mem_map_of_mem hdirectory
  exact plain _ hfields p.1 (List.mem_map_of_mem hp)

end Package

namespace Sample

/-- Tickets, and an operation that needs no definition. -/
def tallySchema : Schema where
  tables := [ticketTable]
  queries := [⟨"ticketTotal", .query, [], .scalar "Int", none⟩]

/-- The root fields of the tickets. -/
theorem rootFields_ticketTable :
    [ticketTable.entityNames.allField, ticketTable.entityNames.oneField] = ["tickets", "ticket"] ∧
    [ticketTable.entityNames.createField, ticketTable.entityNames.updateField,
      ticketTable.entityNames.deleteField] = ["createTicket", "updateTicket", "deleteTicket"] := by
  decide +kernel

/-- The directories of a client for the tickets and some queries. -/
theorem operationFields_tickets {schema : Schema} (tables : schema.tables = [ticketTable])
    (mutations : schema.mutations = []) : schema.operationFields =
      [("queries", ["tickets", "ticket"]),
        ("mutations", ["createTicket", "updateTicket", "deleteTicket"]),
        ("custom-queries", schema.queries.map (·.name)), ("custom-mutations", [])] := by
  obtain ⟨hqueries, hmutations⟩ := rootFields_ticketTable
  simp only [Schema.operationFields, tables, mutations, List.flatMap_singleton, hqueries,
    hmutations, List.map_nil]

/-- The operation that asks for an enum needs it, and the types file does not define it, as no
column has this type. -/
theorem phase_definesForCustom {parts : Package.Parts} (isOf : parts.IsOf ticketSchema {}) :
    parts.DefinesForCustom "Phase" := by
  have hown : "Phase" ∉ TypesFile.ownNames ticketSchema {} := by decide +kernel
  have isOpen : Definitions.IsOpen parts.defined "Phase" := by
    refine ⟨by decide, ?_⟩
    rw [isOf.defined_eq, isOf.blueprint_eq, TypesFile.definedNames, NameSet.mem_insertAll, not_or]
    have hnone : (Blueprint.of ticketSchema {}).schema.tables.flatMap
        (TypesFile.tableMentions (Blueprint.of ticketSchema {}).schema) = [] := by decide +kernel
    exact ⟨TypesFile.not_mem_definitions hnone, hown⟩
  rw [isOf.definesForCustom_iff]
  refine ⟨⟨"Phase", ⟨_, List.mem_cons_self, .argument List.mem_cons_self .enumeration⟩,
    .root List.mem_cons_self isOpen⟩, ?_⟩
  rintro ⟨type, hfind, hbody⟩
  obtain rfl := Option.some.inj hfind
  cases hbody

/-- The manifests of two clients for the tickets. Only the one whose operation asks for an enum has
a file of schema types. -/
theorem tally_manifest :
    (∃ package, Package.of tallySchema {} = .ok package ∧
      package.outline = [("select-types.ts", []), ("types.ts", []), ("client.ts", []),
        ("query-keys.ts", []), ("mutation-keys.ts", []),
        ("queries/tickets.ts", []), ("queries/ticket.ts", []),
        ("queries/index.ts", ["./tickets", "./ticket"]),
        ("mutations/createTicket.ts", []), ("mutations/updateTicket.ts", []),
        ("mutations/deleteTicket.ts", []),
        ("mutations/index.ts", ["./createTicket", "./updateTicket", "./deleteTicket"]),
        ("custom-queries/ticketTotal.ts", []), ("custom-queries/index.ts", ["./ticketTotal"]),
        ("index.ts", ["./select-types", "./types", "./client", "./query-keys", "./mutation-keys",
          "./queries", "./mutations", "./custom-queries"])] ∧
      (∀ artifact ∈ package.artifacts, package.Reached artifact) ∧ package.stats.hooks = 6) ∧
    ∃ package, Package.of ticketSchema {} = .ok package ∧
      package.outline = [("select-types.ts", []), ("types.ts", []), ("schema-types.ts", []),
        ("client.ts", []), ("query-keys.ts", []), ("mutation-keys.ts", []),
        ("queries/tickets.ts", []), ("queries/ticket.ts", []),
        ("queries/index.ts", ["./tickets", "./ticket"]),
        ("mutations/createTicket.ts", []), ("mutations/updateTicket.ts", []),
        ("mutations/deleteTicket.ts", []),
        ("mutations/index.ts", ["./createTicket", "./updateTicket", "./deleteTicket"]),
        ("custom-queries/ticketCount.ts", []), ("custom-queries/index.ts", ["./ticketCount"]),
        ("index.ts", ["./select-types", "./types", "./schema-types", "./client", "./query-keys",
          "./mutation-keys", "./queries", "./mutations", "./custom-queries"])] ∧
      (∀ artifact ∈ package.artifacts, package.Reached artifact) ∧ package.stats.hooks = 6 := by
  constructor
  · obtain ⟨parts, hparts⟩ : ∃ parts, Package.Parts.of tallySchema {} = .ok parts :=
      Package.exists_parts_of_unconfigured _ _ (fun _ => rfl) (fun _ => rfl)
    have hof := Package.of_eq_ok hparts
    have hcustom : parts.customMentions = [] :=
      (Package.Parts.isOf_of_eq_ok hparts).customMentions_eq rfl rfl
    have hfields := operationFields_tickets (rfl : tallySchema.tables = _) rfl
    obtain ⟨⟨parts', extraTypes, hparts', hextra, houtline⟩, hreached, hstats⟩ :=
      Package.manifest_complete (by rw [hfields]; decide) hof
    obtain rfl : parts = parts' := Except.ok.inj (hparts.symm.trans hparts')
    have hfalse : extraTypes = false := by
      rw [← Bool.not_eq_true, hextra]
      rintro ⟨name, reached, -⟩
      exact reached.roots_ne_nil hcustom
    rw [hfalse, hfields] at houtline
    refine ⟨parts.package, hof, houtline, hreached, ?_⟩
    rw [hstats]
    rfl
  · obtain ⟨parts, hparts⟩ : ∃ parts, Package.Parts.of ticketSchema {} = .ok parts :=
      Package.exists_parts_of_unconfigured _ _ (fun _ => rfl) (fun _ => rfl)
    have hof := Package.of_eq_ok hparts
    have hfields := operationFields_tickets (rfl : ticketSchema.tables = _) rfl
    obtain ⟨⟨parts', extraTypes, hparts', hextra, houtline⟩, hreached, hstats⟩ :=
      Package.manifest_complete (by rw [hfields]; decide) hof
    obtain rfl : parts = parts' := Except.ok.inj (hparts.symm.trans hparts')
    have htrue : extraTypes = true :=
      hextra.2 ⟨_, phase_definesForCustom (Package.Parts.isOf_of_eq_ok hparts)⟩
    rw [htrue, hfields] at houtline
    refine ⟨parts.package, hof, houtline, hreached, ?_⟩
    rw [hstats]
    rfl

end Sample

end GraphClient
