import GraphClient.Proofs.Package.Hookless
import GraphClient.Proofs.Package.Resolution
import GraphClient.Proofs.Package.TopLevel
import GraphClient.Proofs.Traversal
import Mathlib.Data.List.Perm.Basic

/-!
# Custom operations and the rest of a package

The files of tables are made from the tables, the registry and the settings. Custom operations have
no influence on them, although the catalog, the key store and the names of the types file are shared
by all files. Nor do custom operations have an influence on each other: the file of one of them does
not depend on the other ones, and the file of schema types depends on what is mentioned, not on the
order in which it is.

* `Package.under` : what stands at the top of a package under a name.
* `Package.operations_do_not_interfere` : what other custom operations, or the same ones in another
  order, change in a package.
-/

namespace GraphClient

open TypeScript (SourceFile)

/-! ## Other custom operations -/

/-- The schema with other custom operations. -/
def Schema.withOperations (schema : Schema) (queries mutations : List CustomOperation) : Schema :=
  { schema with queries, mutations }

/-- Schemas with the same tables and the same registry differ in their custom operations alone. -/
theorem Schema.eq_withOperations {a b : Schema} (tables : a.tables = b.tables)
    (registry : a.registry = b.registry) : b = a.withOperations b.queries b.mutations := by
  cases a
  cases b
  obtain rfl : _ = _ := tables
  obtain rfl : _ = _ := registry
  rfl

section WithOperations

variable (schema : Schema) (settings : Settings) (queries mutations : List CustomOperation)

/-! The catalog is made from the tables and the registry, and so is the part of the key store that
files are made from: the factories, and the namespace that avoids their names. The names of the
custom operations go into the two files of keys alone. -/

/-- The files of the tables do not look at the operations. -/
theorem TableFiles.all_withOperations :
    all (.of (schema.withOperations queries mutations) settings) = all (.of schema settings) := rfl

/-- The names of the table types do not depend on the operations. -/
theorem TypesFile.definedNames_withOperations :
    definedNames (.of (schema.withOperations queries mutations) settings) =
      definedNames (.of schema settings) := rfl

/-- The file of the table types does not look at the operations. -/
theorem TypesFile.file_withOperations :
    file (.of (schema.withOperations queries mutations) settings) =
      file (.of schema settings) := rfl

/-- The file of the selection types does not look at the operations. -/
theorem SelectTypes.file_withOperations :
    file (.of (schema.withOperations queries mutations) settings) =
      file (.of schema settings) := rfl

/-- The client does not look at the operations. -/
theorem ClientFile.file_withOperations :
    file (.of (schema.withOperations queries mutations) settings) =
      file (.of schema settings) := rfl

/-- The file of a custom operation does not look at the others. -/
theorem CustomFiles.fragments_withOperations (operations : List CustomOperation) :
    fragments (.of (schema.withOperations queries mutations) settings) operations =
      fragments (.of schema settings) operations := rfl

/-- The file of the custom types looks at operations only through the types that they need. -/
theorem CustomFiles.schemaTypesFile?_withOperations (defined roots : NameSet) :
    schemaTypesFile? (.of (schema.withOperations queries mutations) settings) defined roots =
      schemaTypesFile? (.of schema settings) defined roots := rfl

end WithOperations

/-! ## Custom operations in another order -/

/-- A traversal of the same elements in another order has the same results in another order. -/
theorem perm_of_mapM {ε α β : Type} {f : α → Except ε β} {as as' : List α} {bs bs' : List β}
    (h : as.mapM f = .ok bs) (h' : as'.mapM f = .ok bs') (perm : as.Perm as') : bs.Perm bs' := by
  rw [mapM_eq_ok_iff] at h h'
  have hmap := perm.map f
  rw [h, h'] at hmap
  exact (List.map_perm_map_iff fun _ _ => Except.ok.inj).1 hmap

namespace Package

namespace Parts

section Operations

variable {parts parts' : Parts} {schema : Schema} {settings : Settings}
  {queries mutations : List CustomOperation}

/-- Two packages for the same tables have the same files for them. -/
theorem tables_eq_of_operations (h : parts.IsOf schema settings)
    (h' : parts'.IsOf (schema.withOperations queries mutations) settings) :
    parts'.tables = parts.tables := by
  have htables := h.tables_eq
  have htables' := h'.tables_eq
  rw [h.blueprint_eq] at htables
  rw [h'.blueprint_eq, TableFiles.all_withOperations, htables] at htables'
  exact (Except.ok.inj htables').symm

/-- Two packages for the same tables define the same names for them. -/
theorem defined_eq_of_operations (h : parts.IsOf schema settings)
    (h' : parts'.IsOf (schema.withOperations queries mutations) settings) :
    parts'.defined = parts.defined := by
  rw [h'.defined_eq, h'.blueprint_eq, TypesFile.definedNames_withOperations, ← h.blueprint_eq,
    ← h.defined_eq]

/-- The files of tables are made of what they are without custom operations. -/
theorem entryFile_eq_of_operations (h : parts.IsOf schema settings)
    (h' : parts'.IsOf (schema.withOperations queries mutations) settings) :
    parts'.entryFile = parts.entryFile := by
  funext entry
  rw [entryFile, entryFile, defined_eq_of_operations h h']

/-- A custom operation has the same file in two packages for the same tables. -/
theorem customFile_eq_of_operations (h : parts.IsOf schema settings)
    (h' : parts'.IsOf (schema.withOperations queries mutations) settings) :
    parts'.customFile = parts.customFile := by
  funext p
  rw [customFile, customFile, defined_eq_of_operations h h']

/-- The order in which custom operations mention types has no influence on the file of schema
types. -/
theorem schemaTypesFile?_eq_of_perm (h : parts.IsOf schema settings)
    (h' : parts'.IsOf (schema.withOperations queries mutations) settings)
    (hqueries : parts.customQueries.Perm parts'.customQueries)
    (hmutations : parts.customMutations.Perm parts'.customMutations) :
    parts'.schemaTypesFile? = parts.schemaTypesFile? := by
  have hdefined := defined_eq_of_operations h h'
  have hmentions : ∀ name, name ∈ parts'.customMentions ↔ name ∈ parts.customMentions :=
    fun name => ((hqueries.append hmutations).flatMap_right _).mem_iff.symm
  have hroots : parts'.customRoots.names = parts.customRoots.names := by
    refine NameSet.names_eq_of_mem_iff parts.customRoots.sorted fun name => ?_
    rw [NameSet.mem_names, mem_customRoots_iff, mem_customRoots_iff, hmentions, hdefined]
  rw [schemaTypesFile?_eq, schemaTypesFile?_eq, h'.blueprint_eq,
    CustomFiles.schemaTypesFile?_withOperations, ← h.blueprint_eq, hdefined,
    CustomFiles.schemaTypesFile?, hroots, ← CustomFiles.schemaTypesFile?]

/-- The files of tables, of types and of the client stand under their names as they do without
custom operations. -/
theorem under_eq_of_operations (h : parts.IsOf schema settings)
    (h' : parts'.IsOf (schema.withOperations queries mutations) settings) {name : String}
    (hname : name ∈ ["select-types.ts", "types.ts", "client.ts", "queries", "mutations"]) :
    parts'.package.under name = parts.package.under name := by
  have htables := tables_eq_of_operations h h'
  have hentry := entryFile_eq_of_operations h h'
  -- Both packages have the same entry under each of the names.
  have hentries : ∃ artifacts, (name, artifacts) ∈ parts.topEntries ∧
      (name, artifacts) ∈ parts'.topEntries := by
    simp only [List.mem_cons, List.not_mem_nil, or_false] at hname
    rcases hname with rfl | rfl | rfl | rfl | rfl
    · have hfile : SelectTypes.file parts'.blueprint = SelectTypes.file parts.blueprint := by
        rw [h'.blueprint_eq, h.blueprint_eq, SelectTypes.file_withOperations]
      refine ⟨[⟨"select-types.ts", SelectTypes.file parts.blueprint⟩], ?_, ?_⟩
      · simp [topEntries, topFiles]
      · simp [topEntries, topFiles, hfile]
    · have hfile : TypesFile.file parts'.blueprint = TypesFile.file parts.blueprint := by
        rw [h'.blueprint_eq, h.blueprint_eq, TypesFile.file_withOperations]
      refine ⟨[⟨"types.ts", TypesFile.file parts.blueprint⟩], ?_, ?_⟩
      · simp [topEntries, topFiles]
      · simp [topEntries, topFiles, hfile]
    · have hfile : ClientFile.file parts'.blueprint = ClientFile.file parts.blueprint := by
        rw [h'.blueprint_eq, h.blueprint_eq, ClientFile.file_withOperations]
      refine ⟨[⟨"client.ts", ClientFile.file parts.blueprint⟩], ?_, ?_⟩
      · simp [topEntries, topFiles]
      · simp [topEntries, topFiles, hfile]
    · refine ⟨(Directory.mk "queries" (parts.tables.flatMap fun table =>
        table.queries.map parts.entryFile)).artifacts, ?_, ?_⟩
      · simp [topEntries, directories]
      · simp [topEntries, directories, htables, hentry]
    · refine ⟨(Directory.mk "mutations" (parts.tables.flatMap fun table =>
        table.mutations.map parts.entryFile)).artifacts, ?_, ?_⟩
      · simp [topEntries, directories]
      · simp [topEntries, directories, htables, hentry]
  obtain ⟨artifacts, hmem, hmem'⟩ := hentries
  rw [parts.under_of_mem_topEntries hmem, parts'.under_of_mem_topEntries hmem']

/-- Custom operations in another order have the same files in another order. -/
theorem operationFiles_perm_of_operations (h : parts.IsOf schema settings)
    (h' : parts'.IsOf (schema.withOperations queries mutations) settings)
    (hqueries : parts.customQueries.Perm parts'.customQueries)
    (hmutations : parts.customMutations.Perm parts'.customMutations) {name : String}
    (hname : name ∈ ["custom-queries", "custom-mutations"]) :
    (parts.package.operationFiles name).Perm (parts'.package.operationFiles name) := by
  have hcustom := customFile_eq_of_operations h h'
  have hfiles : ∃ files files', ⟨name, files⟩ ∈ parts.directories ∧
      ⟨name, files'⟩ ∈ parts'.directories ∧ files.Perm files' := by
    simp only [List.mem_cons, List.not_mem_nil, or_false] at hname
    rcases hname with rfl | rfl
    · refine ⟨parts.customQueries.map parts.customFile,
        parts'.customQueries.map parts'.customFile, by simp [directories], by simp [directories],
        ?_⟩
      rw [hcustom]
      exact hqueries.map _
    · refine ⟨parts.customMutations.map parts.customFile,
        parts'.customMutations.map parts'.customFile, by simp [directories], by simp [directories],
        ?_⟩
      rw [hcustom]
      exact hmutations.map _
  obtain ⟨files, files', hmem, hmem', hperm⟩ := hfiles
  have hown := parts.operationFiles_of_mem_directories hmem
  have hown' := parts'.operationFiles_of_mem_directories hmem'
  rw [hown, hown']
  exact hperm.map _

end Operations

end Parts

/-- Other custom operations leave the files of tables, of types and of the client as they are. The
same custom operations in another order leave the file of schema types as it is, too, and have the
same files in another order. -/
theorem operations_do_not_interfere {schema other : Schema} {settings : Settings}
    {package package' : Package} (tables : schema.tables = other.tables)
    (registry : schema.registry = other.registry) (h : of schema settings = .ok package)
    (h' : of other settings = .ok package') :
    (∀ name ∈ ["select-types.ts", "types.ts", "client.ts", "queries", "mutations"],
      package'.under name = package.under name) ∧
    (schema.queries.Perm other.queries → schema.mutations.Perm other.mutations →
      package'.under "schema-types.ts" = package.under "schema-types.ts" ∧
      ∀ directory ∈ ["custom-queries", "custom-mutations"],
        (package.operationFiles directory).Perm (package'.operationFiles directory)) := by
  obtain ⟨parts, hparts, rfl⟩ := exists_parts_of_eq_ok h
  obtain ⟨parts', hparts', rfl⟩ := exists_parts_of_eq_ok h'
  have isOf := Parts.isOf_of_eq_ok hparts
  have isOf' := Parts.isOf_of_eq_ok hparts'
  -- The second schema is the first one with other operations.
  have hother := Schema.eq_withOperations tables registry
  rw [hother] at isOf'
  constructor
  · intro name hname
    exact Parts.under_eq_of_operations isOf isOf' hname
  · intro queries mutations
    have hfragments := isOf'.queries_eq
    have hfragments' := isOf'.mutations_eq
    rw [isOf'.blueprint_eq, CustomFiles.fragments_withOperations, ← isOf.blueprint_eq] at hfragments
    rw [isOf'.blueprint_eq, CustomFiles.fragments_withOperations, ← isOf.blueprint_eq]
      at hfragments'
    have hqueries := perm_of_mapM isOf.queries_eq hfragments queries
    have hmutations := perm_of_mapM isOf.mutations_eq hfragments' mutations
    constructor
    · rw [parts.under_schemaTypes, parts'.under_schemaTypes,
        Parts.schemaTypesFile?_eq_of_perm isOf isOf' hqueries hmutations]
    · intro directory hdirectory
      exact Parts.operationFiles_perm_of_operations isOf isOf' hqueries hmutations hdirectory

end Package

namespace Sample

/-- An operation that counts the tickets in a phase. -/
def phaseCount (name : String) : CustomOperation :=
  ⟨name, .query, [⟨"phase", .enumeration "Phase", none⟩], .scalar "Int", none⟩

/-- Tickets with two operations. -/
def deskSchema : Schema :=
  ticketSchema.withOperations [phaseCount "ticketCount", phaseCount "overdueCount"] []

/-- Tickets with the same operations in another order. -/
def turnedDeskSchema : Schema :=
  ticketSchema.withOperations [phaseCount "overdueCount", phaseCount "ticketCount"] []

/-- Which operation comes first has an influence on the order of their files alone. -/
theorem desk_operations_do_not_interfere :
    ∃ package package', Package.of deskSchema {} = .ok package ∧
      Package.of turnedDeskSchema {} = .ok package' ∧
      package'.under "queries" = package.under "queries" ∧
      package'.under "schema-types.ts" = package.under "schema-types.ts" ∧
      (package.operationFiles "custom-queries").Perm
        (package'.operationFiles "custom-queries") := by
  obtain ⟨parts, hparts⟩ : ∃ parts, Package.Parts.of deskSchema {} = .ok parts :=
    Package.exists_parts_of_unconfigured _ _ (fun _ => rfl) (fun _ => rfl)
  obtain ⟨parts', hparts'⟩ : ∃ parts', Package.Parts.of turnedDeskSchema {} = .ok parts' :=
    Package.exists_parts_of_unconfigured _ _ (fun _ => rfl) (fun _ => rfl)
  have h := Package.of_eq_ok hparts
  have h' := Package.of_eq_ok hparts'
  have hperm : deskSchema.queries.Perm turnedDeskSchema.queries := List.Perm.swap _ _ []
  have tables : deskSchema.tables = turnedDeskSchema.tables := rfl
  have registry : deskSchema.registry = turnedDeskSchema.registry := rfl
  obtain ⟨hsame, hturned⟩ := Package.operations_do_not_interfere tables registry h h'
  obtain ⟨htypes, hfiles⟩ := hturned hperm (List.Perm.refl [])
  exact ⟨parts.package, parts'.package, h, h', hsame "queries" (by decide), htypes,
    hfiles "custom-queries" (by decide)⟩

end Sample

end GraphClient
