import GraphClient.Proofs.Package.Consistent
import GraphClient.Proofs.Traversal
import Mathlib.Data.List.Nodup

/-!
# The top of a package

At the top of a package stand files, directories and the index. Which of them an artifact belongs to
can be told from the first name of its path.

* `Place.topName` : the first name of a path.
* `Package.under` : what stands at the top of a package under a name.
* `Package.operationFiles` : the files of operations in a directory.
* `Package.Parts.separated_topEntries` : the first names tell apart what stands at the top.
-/

namespace GraphClient

open TypeScript (SourceFile)

/-! ## Blocks with keys -/

/-- Every element of a block has the key of the block, and no two blocks have the same key. -/
structure Separated {α : Type} (key : α → String) (blocks : List (String × List α)) :
    Prop where
  keyed : ∀ block ∈ blocks, ∀ a ∈ block.2, key a = block.1
  nodup : (blocks.map Prod.fst).Nodup

namespace Separated

variable {α : Type} {key : α → String} {blocks : List (String × List α)}

/-- A key that no block has is the key of no element. -/
theorem filter_eq_nil (separated : Separated key blocks) {name : String}
    (h : name ∉ blocks.map Prod.fst) :
    (blocks.flatMap Prod.snd).filter (key · == name) = [] := by
  refine List.filter_eq_nil_iff.2 fun a ha hname => ?_
  obtain ⟨block, hblock, hmem⟩ := List.mem_flatMap.1 ha
  rw [beq_iff_eq, separated.keyed block hblock a hmem] at hname
  exact h (hname ▸ List.mem_map_of_mem hblock)

/-- The elements with the key of a block are those of the block. -/
theorem filter_eq_of_mem (separated : Separated key blocks) {name : String} {elements : List α}
    (h : (name, elements) ∈ blocks) :
    (blocks.flatMap Prod.snd).filter (key · == name) = elements := by
  -- A block in front is the one that is looked for, or has none of its elements.
  induction blocks with
  | nil => cases h
  | cons first rest ih =>
    have hnodup := separated.nodup
    rw [List.map_cons, List.nodup_cons] at hnodup
    have separatedRest : Separated key rest :=
      ⟨fun other hother => separated.keyed other (List.mem_cons_of_mem _ hother), hnodup.2⟩
    rw [List.flatMap_cons, List.filter_append]
    rcases List.mem_cons.1 h with rfl | h
    · have hown : elements.filter (key · == name) = elements := List.filter_eq_self.2 fun a ha =>
        beq_iff_eq.2 (separated.keyed (name, elements) List.mem_cons_self a ha)
      rw [hown, separatedRest.filter_eq_nil hnodup.1, List.append_nil]
    · have hother : first.2.filter (key · == name) = [] := by
        refine List.filter_eq_nil_iff.2 fun a ha hname => ?_
        rw [beq_iff_eq, separated.keyed first List.mem_cons_self a ha] at hname
        exact hnodup.1 (hname ▸ List.mem_map_of_mem h)
      rw [hother, ih separatedRest h, List.nil_append]

/-- Where a value of the elements gives their key, it differs between different blocks. -/
theorem nodup_map_iff {β : Type} {value : α → β} {key : β → String}
    (separated : Separated (fun a => key (value a)) blocks) :
    ((blocks.flatMap Prod.snd).map value).Nodup ↔
      ∀ block ∈ blocks, (block.2.map value).Nodup := by
  rw [List.map_flatMap, List.nodup_flatMap, and_iff_left]
  have hpairwise := List.pairwise_map.1 separated.nodup
  refine hpairwise.imp_of_mem fun {first second} hfirst hsecond hne b hb hb' => hne ?_
  -- A value in two blocks would give the keys of both.
  obtain ⟨a, ha, rfl⟩ := List.mem_map.1 hb
  obtain ⟨a', ha', heq⟩ := List.mem_map.1 hb'
  calc first.1 = key (value a) := (separated.keyed first hfirst a ha).symm
    _ = key (value a') := by rw [heq]
    _ = second.1 := separated.keyed second hsecond a' ha'

end Separated

/-! ## The first name of a path -/

namespace Place

/-- The first name of a path: a directory at the top, or a file there. -/
def topName (path : String) : String := String.ofList ((split path.toList).headD [])

/-- A path without slashes is one name. -/
theorem topName_of_plain {path : String} (h : '/' ∉ path.toList) : topName path = path := by
  rw [topName, split_eq_singleton h]
  exact String.ofList_toList

/-- The path of a file in a directory begins with the directory. -/
theorem topName_inside {directory : String} (h : '/' ∉ directory.toList) (field : String) :
    topName (inside directory field) = directory := by
  rw [topName, toList_inside, split_append_slash, split_eq_singleton h]
  exact String.ofList_toList

/-- The index of a directory stands in it like a file of that name. -/
theorem inside_index (directory : String) :
    inside directory "index" = directory ++ "/index.ts" := by
  apply String.toList_inj.1
  rw [toList_inside, String.toList_append]
  rfl

end Place

/-! ## The directories -/

/-- The directories of a client with the root fields that the files in them are named after. -/
def Schema.operationFields (schema : Schema) : List (String × List String) :=
  [("queries", schema.tables.flatMap fun table =>
      [table.entityNames.allField, table.entityNames.oneField]),
    ("mutations", schema.tables.flatMap fun table =>
      [table.entityNames.createField, table.entityNames.updateField,
        table.entityNames.deleteField]),
    ("custom-queries", schema.queries.map (·.name)),
    ("custom-mutations", schema.mutations.map (·.name))]

/-- What is read off the files of tables can be read off the tables, if it can for each of them. -/
theorem TableFiles.map_eq_of_all {α : Type} {blueprint : Blueprint} {tables : List Entries}
    (h : all blueprint = .ok tables) (read : Entries → α) (read' : Table → α)
    (hread : ∀ factory table templates, read (entries blueprint factory table templates) =
      read' table) : tables.map read = blueprint.schema.tables.map read' := by
  refine map_eq_of_mapM h fun table _ made hmade => ?_
  obtain ⟨factory, templates, -, -, rfl⟩ := Package.Parts.exists_templates_of_made hmade
  exact hread factory table templates

/-- Custom operations keep their order. -/
theorem CustomFiles.map_fst_of_fragments {blueprint : Blueprint}
    {operations : List CustomOperation} {made : List (CustomOperation × Fragment)}
    (h : fragments blueprint operations = .ok made) : made.map Prod.fst = operations := by
  rw [map_eq_of_mapM h, List.map_id]
  intro operation _ p hp
  obtain ⟨template, -, rfl⟩ := Package.Parts.exists_template_of_made hp
  rfl

/-- There is one fragment for every custom operation. -/
theorem CustomFiles.length_of_fragments {blueprint : Blueprint}
    {operations : List CustomOperation} {made : List (CustomOperation × Fragment)}
    (h : fragments blueprint operations = .ok made) : made.length = operations.length := by
  rw [← map_fst_of_fragments h, List.length_map]

/-- The files of a directory are named after its root fields, in their order. -/
theorem Package.Parts.map_directories {parts : Parts} {schema : Schema} {settings : Settings}
    (h : parts.IsOf schema settings) :
    (parts.directories.map fun directory => (directory.name, directory.files.map Prod.fst)) =
      schema.operationFields := by
  have hqueries : (parts.tables.flatMap fun entries =>
      entries.queries.map parts.entryFile).map Prod.fst = schema.tables.flatMap fun table =>
        [table.entityNames.allField, table.entityNames.oneField] := by
    rw [List.map_flatMap, List.flatMap_def, TableFiles.map_eq_of_all h.tables_eq _
      (fun table => [table.entityNames.allField, table.entityNames.oneField]) fun _ _ _ => rfl,
      h.tables, ← List.flatMap_def]
  have hmutations : (parts.tables.flatMap fun entries =>
      entries.mutations.map parts.entryFile).map Prod.fst = schema.tables.flatMap fun table =>
        [table.entityNames.createField, table.entityNames.updateField,
          table.entityNames.deleteField] := by
    rw [List.map_flatMap, List.flatMap_def, TableFiles.map_eq_of_all h.tables_eq _
      (fun table => [table.entityNames.createField, table.entityNames.updateField,
        table.entityNames.deleteField]) fun _ _ _ => rfl, h.tables, ← List.flatMap_def]
  have hcustom : ∀ made : List (CustomOperation × Fragment),
      (made.map parts.customFile).map Prod.fst = (made.map Prod.fst).map (·.name) := by
    intro made
    rw [List.map_map, List.map_map]
    rfl
  rw [directories, List.map_cons, List.map_cons, List.map_cons, List.map_cons, List.map_nil,
    hqueries, hmutations, hcustom, hcustom, CustomFiles.map_fst_of_fragments h.queries_eq,
    CustomFiles.map_fst_of_fragments h.mutations_eq, Schema.operationFields]

/-! ## What stands at the top -/

namespace Package

/-- What stands at the top of the package under a name: a file, or the artifacts of a directory. -/
def under (package : Package) (name : String) : List Artifact :=
  package.artifacts.filter (Place.topName ·.path == name)

/-- The files of operations in a directory: what stands in it, without the index at its end. -/
def operationFiles (package : Package) (directory : String) : List Artifact :=
  (package.under directory).dropLast

namespace Parts

/-- What stands at the top of the package: its files, its directories and its index, each with the
artifacts that belong to it. -/
def topEntries (parts : Parts) : List (String × List Artifact) :=
  parts.topFiles.map (fun p => (p.1 ++ ".ts", [⟨p.1 ++ ".ts", p.2⟩])) ++
    parts.directories.map (fun directory => (directory.name, directory.artifacts)) ++
    [("index.ts", [⟨"index.ts", parts.index⟩])]

variable (parts : Parts)

/-- The entries at the top hold all artifacts, in their order. -/
theorem flatMap_topEntries : parts.topEntries.flatMap Prod.snd = parts.artifacts := by
  rw [topEntries, artifacts, List.flatMap_append, List.flatMap_append, List.flatMap_map,
    List.flatMap_map, List.flatMap_singleton, List.map_eq_flatMap]

/-- No two entries at the top have the same name. -/
theorem nodup_topEntries : (parts.topEntries.map Prod.fst).Nodup := by
  -- Three of the files at the top may be missing.
  cases h : parts.schemaTypesFile? <;> cases h' : parts.blueprint.sharesKeys <;>
    cases h'' : parts.blueprint.sharesMutationKeys <;>
    simp [topEntries, topFiles, directories, h, h', h'']

variable {parts}

/-- Every directory is an entry at the top. -/
theorem mem_topEntries_of_mem_directories {directory : Directory}
    (h : directory ∈ parts.directories) :
    (directory.name, directory.artifacts) ∈ parts.topEntries :=
  List.mem_append_left _ (List.mem_append_right _ (List.mem_map_of_mem h))

/-- All artifacts of a directory stand in it. -/
theorem topName_of_mem_directory {directory : Directory}
    (hdirectory : directory ∈ parts.directories) {artifact : Artifact}
    (h : artifact ∈ directory.artifacts) : Place.topName artifact.path = directory.name := by
  have hslash := slash_not_mem_of_mem_directories hdirectory
  rw [Directory.artifacts] at h
  split at h
  · cases h
  · rcases List.mem_append.1 h with h | h
    · obtain ⟨p, -, rfl⟩ := List.mem_map.1 h
      exact Place.topName_inside hslash p.1
    · rw [List.mem_singleton.1 h, ← Place.inside_index, Place.topName_inside hslash]

variable (parts)

/-- What stands at the top of a package is told apart by the first names of the paths. -/
theorem separated_topEntries : Separated (Place.topName ·.path) parts.topEntries where
  nodup := parts.nodup_topEntries
  keyed := by
    intro entry hentry artifact hartifact
    simp only [topEntries, List.mem_append, List.mem_map, List.mem_singleton] at hentry
    rcases hentry with (⟨p, hp, rfl⟩ | ⟨directory, hdirectory, rfl⟩) | rfl
    · obtain rfl := List.mem_singleton.1 hartifact
      refine Place.topName_of_plain ?_
      rw [String.toList_append, List.mem_append, not_or]
      exact ⟨slash_not_mem_of_mem_topFiles hp, by decide⟩
    · exact topName_of_mem_directory hdirectory hartifact
    · obtain rfl := List.mem_singleton.1 hartifact
      have hplain : '/' ∉ "index.ts".toList := by decide
      exact Place.topName_of_plain hplain

/-- Under the name of an entry at the top stand its artifacts. -/
theorem under_of_mem_topEntries {name : String} {artifacts : List Artifact}
    (h : (name, artifacts) ∈ parts.topEntries) : parts.package.under name = artifacts := by
  show parts.artifacts.filter _ = artifacts
  rw [← flatMap_topEntries]
  exact parts.separated_topEntries.filter_eq_of_mem h

/-- The operation files of a directory are those that were made for it, less the index. -/
theorem operationFiles_of_mem_directories {directory : Directory}
    (h : directory ∈ parts.directories) :
    parts.package.operationFiles directory.name =
      directory.files.map fun p => ⟨Place.inside directory.name p.1, p.2⟩ := by
  rw [operationFiles, parts.under_of_mem_topEntries (mem_topEntries_of_mem_directories h),
    Directory.artifacts]
  split
  · next hempty =>
    rw [List.isEmpty_iff.1 hempty]
    rfl
  · exact List.dropLast_concat

/-- The file of schema types stands at the top if there is one. -/
theorem under_schemaTypes :
    parts.package.under "schema-types.ts" =
      parts.schemaTypesFile?.toList.map fun file => ⟨"schema-types.ts", file⟩ := by
  cases h : parts.schemaTypesFile? with
  | some file => exact parts.under_of_mem_topEntries (by simp [topEntries, topFiles, h])
  | none =>
    show parts.artifacts.filter _ = _
    rw [← flatMap_topEntries]
    refine parts.separated_topEntries.filter_eq_nil ?_
    cases h' : parts.blueprint.sharesKeys <;> cases h'' : parts.blueprint.sharesMutationKeys <;>
      simp [topEntries, topFiles, directories, h, h', h'']

end Parts

end Package

end GraphClient
