import GraphClient.Proofs.Package.Consistent
import GraphClient.Proofs.Package.Hookless
import GraphClient.Proofs.Traversal

/-!
# Packages without hooks

The setting for hooks does nothing but add hooks. A package without them is made exactly if the one
with them is made, and it consists of the same files, from which the hooks are dropped.

* `Package.Parts.of_withHooks` : the parts without hooks are what is left of the parts with them.
* `Package.hooks_only_add` : what is different in the package, and what is not.
-/

namespace GraphClient

open TypeScript (Import ImportSet Item SourceFile)

/-! ## Parts -/

namespace TableFiles

/-- The part of a client without its hooks. -/
def Entry.withoutHooks (entry : Entry) : Entry :=
  { entry with fragment := entry.fragment.withoutHooks }

/-- The files of a table without their hooks. -/
def Entries.withoutHooks (entries : Entries) : Entries :=
  ⟨entries.queries.map (·.withoutHooks), entries.mutations.map (·.withoutHooks)⟩

/-- Without hooks, the files of a table are those with hooks less the hooks. -/
theorem entries_withoutHooks (blueprint : Blueprint) (factory : KeyFactory) (table : Table)
    (templates : TableTemplates) :
    entries blueprint.withoutHooks factory table templates =
      (entries blueprint factory table templates).withoutHooks := by
  simp only [entries, list_withoutHooks, one_withoutHooks, mutation_withoutHooks]
  rfl

/-- The templates do not look at the setting for hooks. -/
theorem templates_withoutHooks (blueprint : Blueprint) (table : Table) :
    TableTemplates.of blueprint.withoutHooks table = TableTemplates.of blueprint table := rfl

/-- Without hooks, the files of all tables are those with hooks less the hooks. -/
theorem all_withoutHooks (blueprint : Blueprint) :
    all blueprint.withoutHooks = (all blueprint).map (List.map (·.withoutHooks)) := by
  refine mapM_eq_map_mapM (fun table => ?_) _
  have hkeys : blueprint.withoutHooks.keys = blueprint.keys := rfl
  simp only [hkeys, templates_withoutHooks]
  cases blueprint.keys.factory? table.entityKey with
  | none => rfl
  | some factory =>
    cases TableTemplates.of blueprint table with
    | error e => rfl
    | ok templates =>
      show Except.ok (entries blueprint.withoutHooks factory table templates) =
        Except.ok (entries blueprint factory table templates).withoutHooks
      rw [entries_withoutHooks]

end TableFiles

/-- Without hooks, the files of custom operations are those with hooks less the hooks, and the same
operations fail. -/
theorem CustomFiles.fragments_withoutHooks (blueprint : Blueprint)
    (operations : List CustomOperation) :
    fragments blueprint.withoutHooks operations =
      (fragments blueprint operations).map (List.map fun p => (p.1, p.2.withoutHooks)) := by
  refine mapM_eq_map_mapM (fun operation => ?_) _
  have hcustom : Request.custom blueprint.withoutHooks.catalog blueprint.withoutHooks.settings
      operation none none =
        Request.custom blueprint.catalog blueprint.settings operation none none := rfl
  rw [hcustom]
  cases Request.custom blueprint.catalog blueprint.settings operation none none with
  | error e => rfl
  | ok template =>
    show Except.ok (operation, fragment blueprint.withoutHooks operation template) =
      Except.ok (operation, (fragment blueprint operation template).withoutHooks)
    rw [fragment_withoutHooks]

namespace Package

/-- The parts without their hooks. -/
def Parts.withoutHooks (parts : Parts) : Parts where
  blueprint := parts.blueprint.withoutHooks
  defined := parts.defined
  customQueries := parts.customQueries.map fun p => (p.1, p.2.withoutHooks)
  customMutations := parts.customMutations.map fun p => (p.1, p.2.withoutHooks)
  tables := parts.tables.map (·.withoutHooks)

/-- What is left of the parts are the parts for the settings without hooks; and where the parts
cannot be made, it is for the same reason. -/
theorem Parts.of_withHooks (schema : Schema) (settings : Settings) :
    Parts.of schema (settings.withHooks false) =
      (Parts.of schema settings).map (·.withoutHooks) := by
  have hblueprint : Blueprint.of schema (settings.withHooks false) =
      (Blueprint.of schema settings).withoutHooks := rfl
  simp only [Parts.of, hblueprint, CustomFiles.fragments_withoutHooks,
    TableFiles.all_withoutHooks]
  cases CustomFiles.fragments (Blueprint.of schema settings) schema.queries with
  | error e => rfl
  | ok queries =>
    cases CustomFiles.fragments (Blueprint.of schema settings) schema.mutations with
    | error e => rfl
    | ok mutations => cases TableFiles.all (Blueprint.of schema settings) <;> rfl

/-! ## Files that have no hooks -/

/-- The files of a directory without their hooks. -/
def Directory.withoutHooks (directory : Directory) : Directory :=
  ⟨directory.name, directory.files.map fun p => (p.1, p.2.withoutHooks)⟩

end Package

/-- The artifact without its hooks. -/
def Artifact.withoutHooks (artifact : Artifact) : Artifact :=
  { artifact with file := artifact.file.withoutHooks }

/-- A file stays as it is if it has no hooks and imports nothing for them. -/
theorem TypeScript.SourceFile.withoutHooks_eq_self {file : SourceFile}
    (imports : ∀ statement ∈ file.imports, isHookSource statement.source = false)
    (items : ∀ item ∈ file.items, item.isHook = false) : file.withoutHooks = file := by
  have himports : (file.imports.filter fun statement => !isHookSource statement.source) =
      file.imports :=
    List.filter_eq_self.2 fun statement hmem => by rw [imports statement hmem]; rfl
  have hitems : (file.items.filter fun item => !item.isHook) = file.items :=
    List.filter_eq_self.2 fun item hmem => by rw [items item hmem]; rfl
  rw [withoutHooks, himports, hitems]

/-- Statements come from the sources that something is asked for from. -/
theorem TypeScript.ImportSet.isHookSource_eq_false {set : ImportSet}
    (h : ∀ source name, set.Asks source name → isHookSource source = false) {statement : Import}
    (hmem : statement ∈ set.statements) : isHookSource statement.source = false := by
  obtain ⟨name, hname⟩ := exists_mem_names hmem
  exact h _ name ((asks_iff_exists_statement _ _ _).2 ⟨statement, hmem, rfl, hname⟩)

/-- Types are asked for at their own source alone. -/
theorem TypeScript.ImportSet.isHookSource_of_asks_typesFrom {origin : String} {names : List String}
    (h : isHookSource origin = false) (source name : String)
    (hasks : (typesFrom origin names).Asks source name) : isHookSource source = false := by
  rw [(asks_typesFrom.1 hasks).1]
  exact h

/-- No definition of a registry type is a hook. -/
theorem Definitions.Defines.isHook_eq_false {registry : TypeRegistry} {scalars : ScalarSettings}
    {name : String} {item : Item} (h : Defines registry scalars name item) :
    item.isHook = false := by
  cases h <;> rfl

/-- Collected definitions are no hooks. -/
theorem Definitions.isHook_eq_false_of_mem {registry : TypeRegistry} {scalars : ScalarSettings}
    {defined : NameSet} {roots : List String} {item : Item}
    (h : item ∈ (Definitions.of registry scalars defined roots).items.map Prod.snd) :
    item.isHook = false := by
  obtain ⟨p, hp, rfl⟩ := List.mem_map.1 h
  exact (Definitions.defines_of_mem_items_of roots p hp).isHook_eq_false

/-- There are no hooks among the table types. -/
theorem TypesFile.withoutHooks_file (blueprint : Blueprint) :
    (file blueprint).withoutHooks = file blueprint := by
  refine SourceFile.withoutHooks_eq_self (fun statement hstatement => ?_) fun item hitem => ?_
  · refine ImportSet.isHookSource_eq_false (fun source name hasks => ?_) hstatement
    split at hasks
    · exact ImportSet.isHookSource_of_asks_typesFrom rfl source name hasks
    · exact absurd hasks ImportSet.not_asks_empty
  · rcases List.mem_append.1 hitem with hitem | hitem
    · exact Definitions.isHook_eq_false_of_mem hitem
    · obtain ⟨declaration, -, rfl⟩ := List.mem_map.1 hitem
      rfl

/-- There are no hooks among the selection types. -/
theorem SelectTypes.withoutHooks_file (blueprint : Blueprint) :
    (file blueprint).withoutHooks = file blueprint := rfl

/-- There are no hooks in the client. -/
theorem ClientFile.withoutHooks_file (blueprint : Blueprint) :
    (file blueprint).withoutHooks = file blueprint := rfl

/-- There are no hooks in an index. -/
theorem Package.barrel_withoutHooks (description : String) (sources : List String) :
    (barrel description sources).withoutHooks = barrel description sources := by
  refine SourceFile.withoutHooks_eq_self (List.forall_mem_nil _) fun item hitem => ?_
  obtain ⟨source, -, rfl⟩ := List.mem_map.1 hitem
  rfl

namespace KeyStore

variable (store : KeyStore)

/-- The files of keys hold constants and types. -/
theorem isHook_eq_false_of_mem_queryKeyItems :
    ∀ item ∈ store.queryKeyItems, item.isHook = false := by
  intro item hitem
  simp only [queryKeyItems, List.mem_append, List.mem_flatMap, List.mem_pair] at hitem
  rcases hitem with (⟨factory, -, hitem⟩ | hitem) | rfl | rfl
  · rcases List.mem_append.1 hitem with hitem | hitem
    · split at hitem
      · rw [List.mem_singleton.1 hitem]
        rfl
      · simp at hitem
    · rw [List.mem_singleton.1 hitem]
      rfl
  · split at hitem
    · simp at hitem
    · rw [List.mem_singleton.1 hitem]
      rfl
  · rfl
  · rfl

/-- No item of the mutation keys is a hook. -/
theorem isHook_eq_false_of_mem_mutationKeyItems :
    ∀ item ∈ store.mutationKeyItems, item.isHook = false := by
  intro item hitem
  simp only [mutationKeyItems, List.mem_append, List.mem_map, List.mem_singleton] at hitem
  rcases hitem with (⟨factory, -, rfl⟩ | hitem) | rfl
  · rfl
  · split at hitem
    · simp at hitem
    · rw [List.mem_singleton.1 hitem]
      rfl
  · rfl

end KeyStore

/-! ## Packages -/

namespace Package

namespace Directory

/-- A directory keeps its files, whether they have hooks or not. -/
theorem isEmpty_withoutHooks (directory : Directory) :
    directory.withoutHooks.isEmpty = directory.isEmpty := by
  rw [isEmpty, withoutHooks, List.isEmpty_map, isEmpty]

/-- The artifacts of a directory keep their paths, and its index does not change. -/
theorem artifacts_withoutHooks (directory : Directory) :
    directory.withoutHooks.artifacts = directory.artifacts.map (·.withoutHooks) := by
  rw [artifacts, isEmpty_withoutHooks, artifacts]
  split
  · rfl
  · simp only [withoutHooks, List.map_append, List.map_map, List.map_cons, List.map_nil,
      Artifact.withoutHooks, barrel_withoutHooks, Function.comp_def]

end Directory

namespace Parts

variable (parts : Parts)

/-- Hooks mention no types of the registry. -/
theorem schemaTypes_withoutHooks (defined : NameSet)
    (fragments : List (CustomOperation × Fragment)) :
    CustomFiles.schemaTypes defined (fragments.map fun p => (p.1, p.2.withoutHooks)) =
      CustomFiles.schemaTypes defined fragments := by
  rw [CustomFiles.schemaTypes, List.flatMap_map]
  rfl

/-- The files at the top are the same. -/
theorem topFiles_withoutHooks : parts.withoutHooks.topFiles = parts.topFiles := by
  have hschema : parts.withoutHooks.schemaTypesFile? = parts.schemaTypesFile? := by
    rw [schemaTypesFile?, schemaTypesFile?]
    simp only [withoutHooks, schemaTypes_withoutHooks]
    rfl
  rw [topFiles, topFiles, hschema]
  rfl

/-- The files at the top have no hooks. -/
theorem withoutHooks_of_mem_topFiles {p : String × SourceFile} (h : p ∈ parts.topFiles) :
    p.2.withoutHooks = p.2 := by
  simp only [topFiles, List.mem_append, List.mem_pair, List.mem_singleton, List.mem_map,
    Option.mem_toList] at h
  rcases h with ((((rfl | rfl) | ⟨file, hfile, rfl⟩) | rfl) | h) | h
  · exact SelectTypes.withoutHooks_file _
  · exact TypesFile.withoutHooks_file _
  · have hmem : ("schema-types", file) ∈ parts.topFiles := by simp [topFiles, hfile]
    obtain ⟨himports, hitems⟩ := schemaTypes_of_mem_topFiles hmem
    refine SourceFile.withoutHooks_eq_self (fun statement hstatement => ?_) fun item hitem => ?_
    · rw [himports] at hstatement
      exact ImportSet.isHookSource_eq_false (ImportSet.isHookSource_of_asks_typesFrom rfl)
        hstatement
    · rw [hitems] at hitem
      exact Definitions.isHook_eq_false_of_mem hitem
  · exact ClientFile.withoutHooks_file _
  · split at h
    · rw [List.mem_singleton.1 h]
      exact SourceFile.withoutHooks_eq_self (List.forall_mem_nil _)
        (KeyStore.isHook_eq_false_of_mem_queryKeyItems _)
    · simp at h
  · split at h
    · rw [List.mem_singleton.1 h]
      exact SourceFile.withoutHooks_eq_self (List.forall_mem_nil _)
        (KeyStore.isHook_eq_false_of_mem_mutationKeyItems _)
    · simp at h

/-- The directories hold the same files without their hooks. -/
theorem directories_withoutHooks :
    parts.withoutHooks.directories = parts.directories.map (·.withoutHooks) := by
  have hcustom : ∀ p, parts.withoutHooks.customFile (p.1, p.2.withoutHooks) =
      ((parts.customFile p).1, (parts.customFile p).2.withoutHooks) :=
    fun p => Prod.ext rfl (Fragment.file_withoutHooks _ _ _)
  have hentry : ∀ entry : TableFiles.Entry, parts.withoutHooks.entryFile entry.withoutHooks =
      ((parts.entryFile entry).1, (parts.entryFile entry).2.withoutHooks) :=
    fun entry => Prod.ext rfl (Fragment.file_withoutHooks _ _ _)
  have hqueries : parts.withoutHooks.customQueries =
      parts.customQueries.map fun p => (p.1, p.2.withoutHooks) := rfl
  have hmutations : parts.withoutHooks.customMutations =
      parts.customMutations.map fun p => (p.1, p.2.withoutHooks) := rfl
  have htables : parts.withoutHooks.tables = parts.tables.map (·.withoutHooks) := rfl
  simp only [directories, List.map_cons, List.map_nil, Directory.withoutHooks, hqueries,
    hmutations, htables, List.flatMap_map, TableFiles.Entries.withoutHooks, List.map_flatMap,
    List.map_map, Function.comp_def, hcustom, hentry]

/-- The index of the package is the same. -/
theorem index_withoutHooks : parts.withoutHooks.index = parts.index := by
  have hkept : ((fun directory : Directory => !directory.isEmpty) ∘ Directory.withoutHooks) =
      fun directory => !directory.isEmpty :=
    funext fun directory => by simp [Directory.isEmpty_withoutHooks]
  have hname : (Directory.name ∘ Directory.withoutHooks) = Directory.name := rfl
  rw [index, topFiles_withoutHooks, directories_withoutHooks, List.filter_map, List.map_map, hkept,
    hname, index]

/-- The artifacts are the same without their hooks. -/
theorem artifacts_withoutHooks :
    parts.withoutHooks.artifacts = parts.artifacts.map (·.withoutHooks) := by
  have htop : (parts.topFiles.map fun p => (⟨p.1 ++ ".ts", p.2⟩ : Artifact)) =
      (parts.topFiles.map fun p => (⟨p.1 ++ ".ts", p.2⟩ : Artifact)).map (·.withoutHooks) := by
    rw [List.map_map]
    refine List.map_congr_left fun p hp => ?_
    show _ = Artifact.mk (p.1 ++ ".ts") p.2.withoutHooks
    rw [parts.withoutHooks_of_mem_topFiles hp]
  have hindex : parts.index = parts.index.withoutHooks := (barrel_withoutHooks _ _).symm
  rw [artifacts, topFiles_withoutHooks, directories_withoutHooks, index_withoutHooks, artifacts,
    List.map_append, List.map_append, ← htop, List.flatMap_map, List.map_flatMap]
  simp only [Directory.artifacts_withoutHooks]
  show _ ++ _ ++ [Artifact.mk "index.ts" parts.index] =
    _ ++ _ ++ [Artifact.mk "index.ts" parts.index.withoutHooks]
  rw [← hindex]

/-- Without hooks there are none to count. -/
theorem hookCount_withoutHooks (fragments : List Fragment) :
    hookCount (fragments.map (·.withoutHooks)) = 0 := by
  induction fragments with
  | nil => rfl
  | cons fragment rest ih =>
    rw [List.map_cons, ← ih]
    show 0 + hookCount _ = _
    rw [Nat.zero_add]

/-- Less the hooks, a package has the fragments less theirs. -/
theorem fragments_withoutHooks :
    parts.withoutHooks.fragments = parts.fragments.map (·.withoutHooks) := by
  simp only [fragments, withoutHooks, List.map_append, List.map_map, List.flatMap_map,
    List.map_flatMap, TableFiles.Entries.withoutHooks, Function.comp_def,
    TableFiles.Entry.withoutHooks]

/-- Only the number of hooks is different. -/
theorem stats_withoutHooks : parts.withoutHooks.stats = { parts.stats with hooks := 0 } := by
  rw [stats, fragments_withoutHooks, hookCount_withoutHooks, artifacts_withoutHooks,
    List.length_map]
  simp only [withoutHooks, List.length_map]
  rfl

/-- The artifact is the file of an operation. -/
def IsOperationFile (artifact : Artifact) : Prop :=
  ∃ directory field fragment description, parts.Operation directory field fragment ∧
    artifact = ⟨Place.inside directory field, fragment.file parts.defined description⟩

/-- Other artifacts have no hooks. -/
theorem withoutHooks_of_not_isOperationFile {artifact : Artifact} (h : artifact ∈ parts.artifacts)
    (hfile : ¬ parts.IsOperationFile artifact) : artifact.withoutHooks = artifact := by
  rcases cases_of_mem_artifacts h with ⟨p, hp, rfl⟩ | hoperation |
    ⟨directory, -, sources, rfl⟩ | rfl
  · rw [Artifact.withoutHooks, parts.withoutHooks_of_mem_topFiles hp]
  · exact absurd hoperation hfile
  · rw [Artifact.withoutHooks, barrel_withoutHooks]
  · rw [Artifact.withoutHooks, index, barrel_withoutHooks]

end Parts

/-- The setting for hooks does nothing but add hooks. With any settings, and with the same ones
without hooks, a package fails for the same reason or is made. If it is made, the paths are the
same, the numbers are the same apart from that of hooks, every artifact is what is left of the one
at its place if the hooks are dropped with the imports from their sources, and only files of
operations lose anything. -/
theorem hooks_only_add (schema : Schema) (settings : Settings) :
    (∃ error, of schema settings = .error error ∧
      of schema (settings.withHooks false) = .error error) ∨
    ∃ parts bare, Parts.of schema settings = .ok parts ∧
      of schema settings = .ok parts.package ∧
      of schema (settings.withHooks false) = .ok bare ∧
      bare.paths = parts.package.paths ∧
      bare.stats = { parts.package.stats with hooks := 0 } ∧
      bare.artifacts = parts.package.artifacts.map (·.withoutHooks) ∧
      ∀ artifact ∈ parts.package.artifacts, ¬ parts.IsOperationFile artifact →
        artifact.withoutHooks = artifact := by
  rw [of, of, Parts.of_withHooks]
  cases Parts.of schema settings with
  | error error => exact .inl ⟨error, rfl, rfl⟩
  | ok parts =>
    refine .inr ⟨parts, parts.withoutHooks.package, rfl, rfl, rfl, ?_, ?_, ?_, ?_⟩
    · show parts.withoutHooks.artifacts.map (·.path) = parts.artifacts.map (·.path)
      rw [Parts.artifacts_withoutHooks, List.map_map]
      rfl
    · exact parts.stats_withoutHooks
    · exact parts.artifacts_withoutHooks
    · exact fun artifact h hfile => parts.withoutHooks_of_not_isOperationFile h hfile

end Package

end GraphClient
