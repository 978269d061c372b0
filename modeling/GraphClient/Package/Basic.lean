import GraphClient.CacheKey.Files
import GraphClient.Package.ClientFile
import GraphClient.Package.CustomFiles
import GraphClient.Package.SelectTypes
import GraphClient.Package.TableFiles
import GraphClient.Package.TypesFile

/-!
# Packages

The files of a client with their paths, in a fixed order, and some numbers about them. A package is
made as a whole or not at all; the first error of the custom queries, then of the custom mutations,
then of the tables is reported.

* `Package.of` : the package of a schema with some settings.
* `Package.find?` : the file at a path.
-/

namespace GraphClient

open TypeScript (Item SourceFile)

/-- A generated file with its path inside the package. -/
structure Artifact where
  path : String
  file : SourceFile
deriving Inhabited

/-- The text of a generated file. -/
def Artifact.content (artifact : Artifact) : String := artifact.file.text

/-- How much was generated. -/
structure PackageStats where
  tables : Nat
  hooks : Nat
  customQueries : Nat
  customMutations : Nat
  artifacts : Nat
deriving Repr, DecidableEq, Inhabited

/-- The files of a client. -/
structure Package where
  artifacts : List Artifact
  stats : PackageStats
deriving Inhabited

namespace Package

/-- The first file at a path. -/
def find? (package : Package) (path : String) : Option Artifact :=
  package.artifacts.find? (·.path == path)

/-- The paths of the files. -/
def paths (package : Package) : List String := package.artifacts.map (·.path)

/-- A file that exports the names of some others. -/
def barrel (description : String) (sources : List String) : SourceFile where
  header := some (fileHeader description)
  items := sources.map fun source => .reExport ("./" ++ source)

/-- The last part of a name with slashes. -/
def lastSegment (name : String) : String :=
  String.ofList (name.toList.reverse.takeWhile (· != '/')).reverse

/-- A directory: its name, and its files with the root fields they are named after. -/
structure Directory where
  name : String
  files : List (String × SourceFile)
deriving Inhabited

namespace Directory

/-- Whether the directory has no files. -/
def isEmpty (directory : Directory) : Bool := directory.files.isEmpty

/-- The artifacts of a directory, its index last; none for a directory without files. -/
def artifacts (directory : Directory) : List Artifact :=
  if directory.isEmpty then []
  else
    directory.files.map (fun p => ⟨directory.name ++ "/" ++ p.1 ++ ".ts", p.2⟩) ++
      [⟨directory.name ++ "/index.ts",
        barrel "Barrel" (directory.files.map fun p => lastSegment p.1)⟩]

end Directory

/-- The parts from which a package is put together. -/
structure Parts where
  blueprint : Blueprint
  /-- All names that the types file defines. -/
  defined : NameSet
  customQueries : List (CustomOperation × Fragment)
  customMutations : List (CustomOperation × Fragment)
  tables : List TableFiles.Entries
deriving Inhabited

/-- The parts for a schema with some settings. -/
def Parts.of (schema : Schema) (settings : Settings) : Except RequestError Parts := do
  let blueprint := Blueprint.of schema settings
  let customQueries ← CustomFiles.fragments blueprint schema.queries
  let customMutations ← CustomFiles.fragments blueprint schema.mutations
  let tables ← TableFiles.all blueprint
  return {
    blueprint
    defined := TypesFile.definedNames blueprint
    customQueries
    customMutations
    tables }

namespace Parts

/-- The file of the types that only custom operations need. -/
def schemaTypesFile? (parts : Parts) : Option SourceFile :=
  CustomFiles.schemaTypesFile? parts.blueprint parts.defined
    ((CustomFiles.schemaTypes parts.defined parts.customQueries).insertAll
      (CustomFiles.schemaTypes parts.defined parts.customMutations).names)

/-- The file of the shared query keys. -/
def queryKeysFile (parts : Parts) : SourceFile where
  header := some (fileHeader "Query keys for cache reads and invalidation")
  items := parts.blueprint.keys.queryKeyItems

/-- The file of the shared mutation keys. -/
def mutationKeysFile (parts : Parts) : SourceFile where
  header := some (fileHeader "Mutation keys")
  items := parts.blueprint.keys.mutationKeyItems

/-- The files at the top of the package, apart from its index, by their names. -/
def topFiles (parts : Parts) : List (String × SourceFile) :=
  [("select-types", SelectTypes.file parts.blueprint), ("types", TypesFile.file parts.blueprint)] ++
    (parts.schemaTypesFile?.toList.map fun file => ("schema-types", file)) ++
    [("client", ClientFile.file parts.blueprint)] ++
    (if parts.blueprint.sharesKeys then [("query-keys", parts.queryKeysFile)] else []) ++
    (if parts.blueprint.sharesMutationKeys then [("mutation-keys", parts.mutationKeysFile)] else [])

/-- A file of a table. -/
def entryFile (parts : Parts) (entry : TableFiles.Entry) : String × SourceFile :=
  (entry.field, entry.fragment.file parts.defined entry.description)

/-- A file of a custom operation. -/
def customFile (parts : Parts) (p : CustomOperation × Fragment) : String × SourceFile :=
  (p.1.name, p.2.file parts.defined (CustomFiles.description p.1))

/-- The directories of the package, empty ones too. -/
def directories (parts : Parts) : List Directory :=
  [⟨"queries", parts.tables.flatMap fun table => table.queries.map parts.entryFile⟩,
    ⟨"mutations", parts.tables.flatMap fun table => table.mutations.map parts.entryFile⟩,
    ⟨"custom-queries", parts.customQueries.map parts.customFile⟩,
    ⟨"custom-mutations", parts.customMutations.map parts.customFile⟩]

/-- The index of the package: the files at its top, then the directories that are not empty. -/
def index (parts : Parts) : SourceFile :=
  barrel "Generated GraphQL client"
    (parts.topFiles.map Prod.fst ++
      (parts.directories.filter fun directory => !directory.isEmpty).map (·.name))

/-- The artifacts of the package in order. -/
def artifacts (parts : Parts) : List Artifact :=
  parts.topFiles.map (fun p => ⟨p.1 ++ ".ts", p.2⟩) ++
    parts.directories.flatMap (·.artifacts) ++ [⟨"index.ts", parts.index⟩]

/-- The number of hooks of some parts. -/
def hookCount (fragments : List Fragment) : Nat :=
  fragments.foldr (fun fragment count => fragment.hooks + count) 0

/-- All operation files as parts. -/
def fragments (parts : Parts) : List Fragment :=
  (parts.tables.flatMap fun table => (table.queries ++ table.mutations).map (·.fragment)) ++
    parts.customQueries.map Prod.snd ++ parts.customMutations.map Prod.snd

/-- The numbers about the package. -/
def stats (parts : Parts) : PackageStats where
  tables := parts.blueprint.schema.tables.length
  hooks := hookCount parts.fragments
  customQueries := parts.customQueries.length
  customMutations := parts.customMutations.length
  artifacts := parts.artifacts.length

/-- The package of some parts. -/
def package (parts : Parts) : Package := ⟨parts.artifacts, parts.stats⟩

end Parts

/-- The package of a schema with some settings. -/
def of (schema : Schema) (settings : Settings) : Except RequestError Package :=
  (Parts.of schema settings).map (·.package)

end Package

end GraphClient
