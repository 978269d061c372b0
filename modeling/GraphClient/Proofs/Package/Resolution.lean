import GraphClient.Proofs.Package.Consistent
import GraphClient.Proofs.Package.OperationExports
import GraphClient.Proofs.Package.Rejection

/-!
# When imports resolve

A package is sound if every relative import leads to one of its files, and that file exports every
imported name. Packages are not sound without further ado: a name counts as defined in the types
file because some table is called so, a custom operation may refer to a scalar as if it were
another type, and the selections that are configured for tables may lead to types that no custom
operation needs, so that the file of schema types lacks them. These are the only reasons, apart
from root fields whose names lead out of their directory.

* `Package.ImportsResolve` : the imports of a package lead to names that are there.
* `Package.importsResolve_iff` : imports resolve exactly if the parts are consistent.
-/

namespace GraphClient

open TypeScript (Import ImportSet SourceFile)
open Text (EndsIn)

namespace Package

/-- Every relative import of a file leads to a file of the package that exports every imported
name. -/
def ImportsResolve (package : Package) : Prop :=
  ∀ artifact ∈ package.artifacts, ∀ statement ∈ artifact.file.imports,
    Place.isRelative statement.source = true →
    ∃ target ∈ package.artifacts, ∃ place,
      Place.ofImport artifact.path statement.source = some place ∧
        Place.ofPath target.path = some place ∧
          ∀ name ∈ statement.names, name ∈ target.file.exportedNames

namespace Parts

variable {parts : Parts} {schema : Schema} {settings : Settings}

/-! ## Resolving imports leave operations one directory deep -/

/-- Every operation asks for the function that executes requests. -/
theorem asks_execute (h : parts.IsOf schema settings) {directory field : String}
    {fragment : Fragment} (operation : parts.Operation directory field fragment) :
    fragment.imports.Asks "../client" "execute" := by
  have hsender : ∀ names optional, (Fragment.sender names optional).imports.Asks "../client"
      "execute" := fun _ _ => ImportSet.asks_value.2 ⟨rfl, rfl⟩
  cases operation.made h with
  | list =>
    simp only [TableFiles.list, Fragment.imports_append, ImportSet.asks_append, hsender, true_or,
      or_true]
  | one =>
    simp only [TableFiles.one, Fragment.imports_append, ImportSet.asks_append, hsender, true_or,
      or_true]
  | mutation =>
    simp only [TableFiles.mutation, Fragment.imports_append, ImportSet.asks_append, hsender,
      true_or, or_true]
  | customQuery | customMutation =>
    simp only [CustomFiles.fragment, Fragment.imports_append, ImportSet.asks_append, hsender,
      true_or, or_true]

/-- A name that a file of an operation asks for is exported at the place it is asked from. -/
theorem exists_target_of_asks (resolve : parts.package.ImportsResolve) {directory field : String}
    {fragment : Fragment} (operation : parts.Operation directory field fragment)
    {source name : String} (hasks : (fragment.allImports parts.defined).Asks source name)
    (hrelative : Place.isRelative source = true) :
    ∃ target ∈ parts.artifacts, ∃ place,
      Place.ofImport (Place.inside directory field) source = some place ∧
        Place.ofPath target.path = some place ∧ name ∈ target.file.exportedNames := by
  obtain ⟨description, hmem⟩ := exists_artifact_of_operation operation
  obtain ⟨statement, hstatement, rfl, hname⟩ :=
    (ImportSet.asks_iff_exists_statement _ source name).1 hasks
  obtain ⟨target, htarget, place, himport, hplace, hnames⟩ :=
    resolve _ hmem statement hstatement hrelative
  exact ⟨target, htarget, place, himport, hplace, hnames name hname⟩

/-- Only the client executes requests, and it stands at the top: a file further down would have to
belong to an operation that is called `client`. -/
theorem oneDeep_of_importsResolve (h : parts.IsOf schema settings)
    (resolve : parts.package.ImportsResolve) {directory field : String} {fragment : Fragment}
    (operation : parts.Operation directory field fragment) :
    ∃ file around, Place.ofPath (Place.inside directory field) = some [file, around] := by
  have hasks : (fragment.allImports parts.defined).Asks "../client" "execute" :=
    ImportSet.asks_append.2 (.inl (ImportSet.asks_append.2 (.inl (asks_execute h operation))))
  obtain ⟨target, htarget, place, himport, hplace, hexecute⟩ :=
    exists_target_of_asks resolve operation hasks (by decide)
  cases hpath : Place.ofPath (Place.inside directory field) with
  | none =>
    rw [Place.ofImport, hpath, Option.bind_none] at himport
    cases himport
  | some own =>
    obtain ⟨last, around, -, rfl⟩ := Place.exists_of_ofPath_inside hpath
    have hsource : "../client" = "../" ++ "client" := by decide
    rw [hsource, Place.ofImport_up hpath (by decide)] at himport
    obtain ⟨inner, hinner, rfl⟩ := Option.map_eq_some_iff.1 himport
    obtain ⟨outer, rfl⟩ := List.head?_eq_some_iff.1 hinner
    -- The client is looked for one directory up, so the place of the file that is found there tells
    -- how deep the file of the operation is.
    rcases cases_of_mem_artifacts htarget with ⟨p, hp, rfl⟩ |
      ⟨directory', field', fragment', description, operation', rfl⟩ |
      ⟨directory', hdirectory, sources, rfl⟩ | rfl
    · rw [ofPath_of_mem_topFiles hp] at hplace
      obtain rfl : [] = outer := (List.cons.inj (Option.some.inj hplace)).2
      exact ⟨_, inner, rfl⟩
    · -- The innermost name would be that of the client, which no operation can stand in for.
      obtain ⟨last', around', hsuffix, heq⟩ := Place.exists_of_ofPath_inside hplace
      have hlast : "client".toList = last' :=
        List.append_cancel_right (List.cons.inj heq).1
      obtain ⟨before, hbefore⟩ := hsuffix
      have hending : EndsIn ['t', 'T'] field' := by
        refine ⟨before ++ "clien".toList, 't', by simp, ?_⟩
        rw [← hbefore, ← hlast]
        simp
      exact absurd hexecute (operation'.hasNoExecutor h hending)
    · rw [ofPath_index hdirectory] at hplace
      have heq := (List.cons.inj (Option.some.inj hplace)).1
      exact absurd heq (by decide)
    · have hindex : Place.ofPath "index.ts" = some ["index.ts".toList] := by decide
      rw [hindex] at hplace
      have heq := (List.cons.inj (Option.some.inj hplace)).1
      exact absurd heq (by decide)

/-! ## Resolving imports leave nothing undefined -/

/-- A name that a file of an operation asks for from the directory above is exported by a file at
the top. -/
theorem exists_topFile_of_asks (h : parts.IsOf schema settings)
    (resolve : parts.package.ImportsResolve) {directory field : String} {fragment : Fragment}
    (operation : parts.Operation directory field fragment) {top name : String}
    (hslash : '/' ∉ top.toList) (hindex : top ≠ "index")
    (hasks : (fragment.allImports parts.defined).Asks ("../" ++ top) name) :
    ∃ file, (top, file) ∈ parts.topFiles ∧ name ∈ file.exportedNames := by
  obtain ⟨target, htarget, place, himport, hplace, hname⟩ :=
    exists_target_of_asks resolve operation hasks (Place.isRelative_up top)
  obtain ⟨file, around, hdeep⟩ := oneDeep_of_importsResolve h resolve operation
  rw [Place.ofImport_up hdeep hslash] at himport
  obtain rfl : [top.toList ++ ['.', 't', 's']] = place := by simpa using himport
  refine ⟨target.file, mem_topFiles_of_ofPath (fun _ _ _ operation' =>
    oneDeep_of_importsResolve h resolve operation') htarget hindex hplace, hname⟩

/-- What a fragment mentions and the table types define is imported from there. -/
theorem allImports_asks_types {fragment : Fragment} {name : String}
    (hmention : name ∈ fragment.mentions) (hbuiltin : isBuiltinType name = false)
    (hdefined : name ∈ parts.defined) :
    (fragment.allImports parts.defined).Asks ("../" ++ "types") name := by
  have htypes : name ∈ (fragment.references parts.defined).tableTypes.names :=
    References.mem_tableTypes_ofNames.2 ⟨hmention, hbuiltin, hdefined⟩
  exact ImportSet.asks_append.2 (.inl (ImportSet.asks_append.2
    (.inr (ImportSet.asks_typesFrom.2 ⟨by decide, htypes⟩))))

/-- What a fragment mentions and nothing else defines is imported from the custom types. -/
theorem allImports_asks_schemaTypes {fragment : Fragment} {name : String}
    (hmention : name ∈ fragment.mentions) (isOpen : Definitions.IsOpen parts.defined name) :
    (fragment.allImports parts.defined).Asks ("../" ++ "schema-types") name := by
  have htypes : name ∈ (fragment.references parts.defined).schemaTypes.names :=
    References.mem_schemaTypes_ofNames.2 ⟨hmention, isOpen⟩
  exact ImportSet.asks_append.2 (.inr (ImportSet.asks_typesFrom.2 ⟨by decide, htypes⟩))

/-- What is mentioned by custom operations and by tables is mentioned by a file of an operation. -/
theorem exists_operation_of_mem_customMentions {name : String} (h : name ∈ parts.customMentions) :
    ∃ directory field fragment, parts.Operation directory field fragment ∧
      name ∈ fragment.mentions := by
  obtain ⟨p, hp, hname⟩ := List.mem_flatMap.1 h
  rcases List.mem_append.1 hp with hp | hp
  · exact ⟨_, _, _, .customQuery hp, hname⟩
  · exact ⟨_, _, _, .customMutation hp, hname⟩

/-- What the table operations mention, one of them does. -/
theorem exists_operation_of_mem_tableMentions {name : String} (h : name ∈ parts.tableMentions) :
    ∃ directory field fragment, parts.Operation directory field fragment ∧
      name ∈ fragment.mentions := by
  obtain ⟨entries, hentries, h⟩ := List.mem_flatMap.1 h
  obtain ⟨entry, hentry, hname⟩ := List.mem_flatMap.1 h
  rcases List.mem_append.1 hentry with hentry | hentry
  · exact ⟨_, _, _, .tableQuery hentries hentry, hname⟩
  · exact ⟨_, _, _, .tableMutation hentries hentry, hname⟩

/-- What the definitions for custom operations leave to the types file is exported there. -/
theorem mem_exportedNames_of_elsewhere (h : parts.IsOf schema settings)
    (named : parts.blueprint.schema.registry.Named) (resolve : parts.package.ImportsResolve)
    {source name : String} (hsource : parts.DefinesForCustom source)
    (hmention : Definitions.Mentions parts.blueprint.schema.registry source name)
    (hbuiltin : isBuiltinType name = false) (hdefined : name ∈ parts.defined) :
    name ∈ (TypesFile.file parts.blueprint).exportedNames := by
  -- The file of schema types is there, because it defines the source.
  obtain ⟨file, hfile, -⟩ := (exists_schemaTypes_iff named source).2 hsource
  have hasks : (ImportSet.typesFrom "./types" (parts.blueprint.definitions parts.defined
      parts.customRoots.names).elsewhere.names).Asks "./types" name :=
    ImportSet.asks_typesFrom.2
      ⟨rfl, (mem_elsewhere_iff name).2 ⟨hbuiltin, hdefined, source, hsource, hmention⟩⟩
  obtain ⟨statement, hstatement, horigin, hname⟩ :=
    (ImportSet.asks_iff_exists_statement _ _ _).1 hasks
  rw [← (schemaTypes_of_mem_topFiles hfile).1] at hstatement
  obtain ⟨target, htarget, place, himport, hplace, hnames⟩ :=
    resolve _ (mem_artifacts_of_mem_topFiles hfile) statement hstatement
      (by rw [horigin]; decide)
  have hplace' : Place.ofImport ("schema-types" ++ ".ts") "./types" =
      some ["types".toList ++ ['.', 't', 's']] := by decide
  rw [horigin, hplace'] at himport
  obtain rfl := Option.some.inj himport
  have htop := mem_topFiles_of_ofPath (fun _ _ _ operation =>
    oneDeep_of_importsResolve h resolve operation) htarget (by decide) hplace
  rw [← eq_file_of_mem_topFiles htop]
  exact hnames name hname

/-- Where imports resolve, the parts fit together. -/
theorem consistent_of_importsResolve (wellFormed : schema.WellFormed)
    (h : parts.IsOf schema settings) (resolve : parts.package.ImportsResolve) :
    parts.Consistent := by
  have named := h.named wellFormed.named
  have hschemaTypes : ∀ {directory field fragment}, parts.Operation directory field fragment →
      ∀ name ∈ fragment.mentions, Definitions.IsOpen parts.defined name →
        parts.DefinesForCustom name := by
    intro directory field fragment operation name hname isOpen
    rw [← exists_schemaTypes_iff named]
    exact exists_topFile_of_asks h resolve operation (by decide) (by decide)
      (allImports_asks_schemaTypes hname isOpen)
  have htypes : ∀ {directory field fragment}, parts.Operation directory field fragment →
      ∀ name ∈ fragment.mentions, isBuiltinType name = false → name ∈ parts.defined →
        name ∈ (TypesFile.file parts.blueprint).exportedNames := by
    intro directory field fragment operation name hname hbuiltin hdefined
    obtain ⟨file, hfile, hexported⟩ := exists_topFile_of_asks h resolve operation (by decide)
      (by decide) (allImports_asks_types hname hbuiltin hdefined)
    rwa [← eq_file_of_mem_topFiles hfile]
  constructor
  · exact fun _ _ _ operation => oneDeep_of_importsResolve h resolve operation
  · intro table htable hbuiltin hmentioned
    have hdefined : table.name ∈ parts.defined := by
      rw [h.defined_eq, TypesFile.mem_definedNames_iff named]
      exact .inr ⟨table, htable, rfl⟩
    rcases hmentioned with hcustom | htable | ⟨source, hsource, hmention⟩
    · obtain ⟨_, _, _, operation, hname⟩ := exists_operation_of_mem_customMentions hcustom
      exact htypes operation _ hname hbuiltin hdefined
    · obtain ⟨_, _, _, operation, hname⟩ := exists_operation_of_mem_tableMentions htable
      exact htypes operation _ hname hbuiltin hdefined
    · exact mem_exportedNames_of_elsewhere h named resolve hsource hmention hbuiltin hdefined
  · intro name hname isOpen
    obtain ⟨_, _, _, operation, hmention⟩ := exists_operation_of_mem_customMentions hname
    exact (hschemaTypes operation name hmention isOpen).2
  · intro name hname isOpen
    obtain ⟨_, _, _, operation, hmention⟩ := exists_operation_of_mem_tableMentions hname
    exact hschemaTypes operation name hmention isOpen

/-! ## Consistent parts make imports resolve -/

/-- Statements resolve if all that is asked for is exported at the top. `lead` leads to the top from
where the statements stand. -/
theorem resolves_of_asks {path lead : String} {set : ImportSet}
    (hpath : ∀ p ∈ parts.topFiles, Place.ofImport path (lead ++ p.1) =
      some [p.1.toList ++ ['.', 't', 's']])
    (hset : ∀ source name, set.Asks source name → source = Fragment.hookLibrary ∨
      ∃ p ∈ parts.topFiles, source = lead ++ p.1 ∧ name ∈ p.2.exportedNames)
    {statement : Import} (hstatement : statement ∈ set.statements)
    (hrelative : Place.isRelative statement.source = true) :
    ∃ target ∈ parts.artifacts, ∃ place,
      Place.ofImport path statement.source = some place ∧
        Place.ofPath target.path = some place ∧
          ∀ name ∈ statement.names, name ∈ target.file.exportedNames := by
  have hnames : ∀ name ∈ statement.names, ∃ p ∈ parts.topFiles,
      statement.source = lead ++ p.1 ∧ name ∈ p.2.exportedNames := by
    intro name hname
    rcases hset _ name ((ImportSet.asks_iff_exists_statement _ _ _).2
      ⟨statement, hstatement, rfl, hname⟩) with hhook | hprovided
    · rw [hhook] at hrelative
      exact absurd hrelative (by decide)
    · exact hprovided
  obtain ⟨first, hfirst⟩ := ImportSet.exists_mem_names hstatement
  obtain ⟨p, hp, hsource, -⟩ := hnames first hfirst
  refine ⟨⟨p.1 ++ ".ts", p.2⟩, mem_artifacts_of_mem_topFiles hp, _, ?_,
    ofPath_of_mem_topFiles hp, ?_⟩
  · rw [hsource, hpath p hp]
  · -- All names of a statement come from one source, and so from one file.
    intro name hname
    obtain ⟨q, hq, hsource', hexported⟩ := hnames name hname
    have heq : q.1 = p.1 := by
      rw [hsource] at hsource'
      exact (String.append_right_inj lead).1 hsource'.symm
    have hfind : Entries.find? parts.topFiles p.1 = some p.2 :=
      Entries.find?_of_mem nodup_topFiles hp
    have hfind' : Entries.find? parts.topFiles q.1 = some q.2 :=
      Entries.find?_of_mem nodup_topFiles hq
    rw [heq, hfind] at hfind'
    rwa [Option.some.inj hfind']

/-- Whatever an operation mentions is mentioned by custom operations or by tables. -/
theorem mem_mentions_of_operation {directory field : String} {fragment : Fragment}
    (operation : parts.Operation directory field fragment) {name : String}
    (hname : name ∈ fragment.mentions) :
    name ∈ parts.customMentions ∨ name ∈ parts.tableMentions := by
  cases operation with
  | tableQuery table mem =>
    exact .inr (List.mem_flatMap.2 ⟨_, table, List.mem_flatMap.2
      ⟨_, List.mem_append_left _ mem, hname⟩⟩)
  | tableMutation table mem =>
    exact .inr (List.mem_flatMap.2 ⟨_, table, List.mem_flatMap.2
      ⟨_, List.mem_append_right _ mem, hname⟩⟩)
  | customQuery mem =>
    exact .inl (List.mem_flatMap.2 ⟨_, List.mem_append_left _ mem, hname⟩)
  | customMutation mem =>
    exact .inl (List.mem_flatMap.2 ⟨_, List.mem_append_right _ mem, hname⟩)

namespace Consistent

/-- What counts as defined in the types file and is mentioned is exported there. -/
theorem mem_exportedNames (consistent : parts.Consistent) (h : parts.IsOf schema settings)
    (named : parts.blueprint.schema.registry.Named) {name : String}
    (hbuiltin : isBuiltinType name = false) (hdefined : name ∈ parts.defined)
    (hmentioned : parts.Mentioned name) :
    name ∈ (TypesFile.file parts.blueprint).exportedNames := by
  rw [h.defined_eq, TypesFile.mem_definedNames_iff named] at hdefined
  rcases hdefined with hexported | ⟨table, htable, rfl⟩
  · exact hexported
  · exact consistent.ownNames table htable hbuiltin hmentioned

/-- What the types file lacks and an operation mentions is defined for custom operations. -/
theorem definesForCustom (consistent : parts.Consistent) {name : String}
    (isOpen : Definitions.IsOpen parts.defined name)
    (hmentioned : name ∈ parts.customMentions ∨ name ∈ parts.tableMentions) :
    parts.DefinesForCustom name := by
  rcases hmentioned with hcustom | htable
  · exact ⟨.root hcustom isOpen, consistent.customTypes name hcustom isOpen⟩
  · exact consistent.tableTypes name htable isOpen

/-- All that a file of an operation asks for is there. -/
theorem supports_allImports (consistent : parts.Consistent) (wellFormed : schema.WellFormed)
    (h : parts.IsOf schema settings) (named : parts.blueprint.schema.registry.Named)
    {directory field : String} {fragment : Fragment}
    (operation : parts.Operation directory field fragment) :
    parts.Supports (fragment.allImports parts.defined) := by
  refine (supports_append _ _).2 ⟨(supports_append _ _).2
    ⟨supports_imports_of_operation wellFormed h operation, ?_⟩, ?_⟩
  · refine supports_typesFrom fun name hname => provides_types ?_
    obtain ⟨hmention, hbuiltin, hdefined⟩ := References.mem_tableTypes_ofNames.1 hname
    refine consistent.mem_exportedNames h named hbuiltin hdefined ?_
    exact (mem_mentions_of_operation operation hmention).imp_right .inl
  · refine supports_typesFrom fun name hname => ?_
    obtain ⟨hmention, isOpen⟩ := References.mem_schemaTypes_ofNames.1 hname
    obtain ⟨file, hfile, hexported⟩ := (exists_schemaTypes_iff named name).2
      (consistent.definesForCustom isOpen (mem_mentions_of_operation operation hmention))
    exact ⟨_, hfile, rfl, hexported⟩

/-- The imports of a file at the top resolve: those of the types file, and those of the file of
schema types. -/
theorem resolves_of_mem_topFiles (consistent : parts.Consistent) (h : parts.IsOf schema settings)
    (named : parts.blueprint.schema.registry.Named) {p : String × SourceFile}
    (hp : p ∈ parts.topFiles) {statement : Import} (hstatement : statement ∈ p.2.imports)
    (hrelative : Place.isRelative statement.source = true) :
    ∃ target ∈ parts.artifacts, ∃ place,
      Place.ofImport (p.1 ++ ".ts") statement.source = some place ∧
        Place.ofPath target.path = some place ∧
          ∀ name ∈ statement.names, name ∈ target.file.exportedNames := by
  have hpath : ∀ q ∈ parts.topFiles, Place.ofImport (p.1 ++ ".ts") ("./" ++ q.1) =
      some [q.1.toList ++ ['.', 't', 's']] := fun q hq =>
    Place.ofImport_beside (ofPath_of_mem_topFiles hp) (slash_not_mem_of_mem_topFiles hq)
  have hcases := hp
  simp only [topFiles, List.mem_append, List.mem_cons, List.not_mem_nil, or_false, List.mem_map,
    Option.mem_toList] at hcases
  rcases hcases with ((((rfl | rfl) | ⟨file, -, rfl⟩) | rfl) | hkeys) | hkeys
  · exact absurd hstatement (List.not_mem_nil)
  · refine resolves_of_asks hpath (fun source name hasks => .inr ?_) hstatement hrelative
    split at hasks
    · obtain ⟨rfl, hname⟩ := ImportSet.asks_typesFrom.1 hasks
      refine ⟨("select-types", SelectTypes.file parts.blueprint), by simp [topFiles], rfl, ?_⟩
      rw [SelectTypes.exportedNames_file]
      simp_all
    · exact absurd hasks ImportSet.not_asks_empty
  · rw [(schemaTypes_of_mem_topFiles hp).1] at hstatement
    refine resolves_of_asks hpath (fun source name hasks => .inr ?_) hstatement hrelative
    obtain ⟨rfl, hname⟩ := ImportSet.asks_typesFrom.1 hasks
    obtain ⟨hbuiltin, hdefined, source, hsource, hmention⟩ := (mem_elsewhere_iff name).1 hname
    refine ⟨("types", TypesFile.file parts.blueprint), by simp [topFiles], rfl, ?_⟩
    exact consistent.mem_exportedNames h named hbuiltin hdefined
      (.inr (.inr ⟨source, hsource, hmention⟩))
  · exact absurd hstatement (List.not_mem_nil)
  all_goals
    split at hkeys
    · obtain rfl : p = _ := List.mem_singleton.1 hkeys
      exact absurd hstatement (List.not_mem_nil)
    · simp at hkeys

/-- Where the parts fit together, imports resolve. -/
theorem importsResolve (consistent : parts.Consistent) (wellFormed : schema.WellFormed)
    (h : parts.IsOf schema settings) : parts.package.ImportsResolve := by
  have named := h.named wellFormed.named
  intro artifact hartifact statement hstatement hrelative
  rcases cases_of_mem_artifacts hartifact with ⟨p, hp, rfl⟩ |
    ⟨directory, field, fragment, description, operation, rfl⟩ |
    ⟨directory, hdirectory, sources, rfl⟩ | rfl
  · exact consistent.resolves_of_mem_topFiles h named hp hstatement hrelative
  · obtain ⟨file, around, hdeep⟩ := consistent.oneDeep directory field fragment operation
    refine resolves_of_asks (fun p hp => ?_)
      (consistent.supports_allImports wellFormed h named operation) hstatement hrelative
    rw [Place.ofImport_up hdeep (slash_not_mem_of_mem_topFiles hp)]
    rfl
  · exact absurd hstatement (List.not_mem_nil)
  · exact absurd hstatement (List.not_mem_nil)

end Consistent

end Parts

/-- Parts are put together to a package. -/
theorem of_eq_ok {schema : Schema} {settings : Settings} {parts : Parts}
    (h : Parts.of schema settings = .ok parts) : of schema settings = .ok parts.package := by
  rw [of, h]
  rfl

/-- A package is put together from parts. -/
theorem exists_parts_of_eq_ok {schema : Schema} {settings : Settings} {package : Package}
    (h : of schema settings = .ok package) :
    ∃ parts, Parts.of schema settings = .ok parts ∧ parts.package = package := by
  rw [of] at h
  cases hparts : Parts.of schema settings with
  | error e => simp [hparts, Except.map] at h
  | ok parts => exact ⟨parts, rfl, by simpa [hparts, Except.map] using h⟩

end Package

namespace Sample

/-- A plain table. -/
def ticketTable : Table where
  name := "Ticket"
  fields := [⟨"id", (TypeRef.scalar "UUID").required, none⟩]

/-- The table together with an operation that asks for an enum. -/
def ticketSchema : Schema where
  tables := [ticketTable]
  queries := [⟨"ticketCount", .query, [⟨"phase", .enumeration "Phase", none⟩], .scalar "Int", none⟩]
  registry := .ofList [⟨"Phase", .enumeration ["OPEN", "CLOSED"], none⟩]

theorem wellFormed_ticketSchema : ticketSchema.WellFormed where
  named := TypeRegistry.named_ofList _
  queries := by simp [ticketSchema]
  mutations := by simp [ticketSchema]

/-- A table whose rows have a type of another name. -/
def statusTable : Table where
  name := "Status"
  fields := [⟨"id", (TypeRef.scalar "UUID").required, none⟩]
  inflection := some { tableType := some "StatusRow" }

/-- The table together with an operation that asks for an enum. The enum is called like the
table. -/
def statusSchema : Schema where
  tables := [statusTable]
  queries := [⟨"ticketCount", .query, [⟨"status", .enumeration "Status", none⟩], .scalar "Int",
    none⟩]
  registry := .ofList [⟨"Status", .enumeration ["OPEN", "CLOSED"], none⟩]

theorem wellFormed_statusSchema : statusSchema.WellFormed where
  named := TypeRegistry.named_ofList _
  queries := by simp [statusSchema]
  mutations := by simp [statusSchema]

/-- The types file does not define the enum, for it counts as the name of a table. -/
theorem status_not_mem_exportedNames :
    "Status" ∉ (TypesFile.file (.of statusSchema {})).exportedNames := by
  rw [TypesFile.mem_exportedNames_file_iff wellFormed_statusSchema.named]
  rintro (hdefinition | hfilter | ⟨table, htable, htype⟩)
  · rw [TypesFile.definitions, Blueprint.definitions, Definitions.mem_names_of_iff] at hdefinition
    exact hdefinition.1.isOpen.2 (NameSet.mem_ofList.2 (List.mem_append_left _ List.mem_cons_self))
  · have unfiltered : "Status" ∉ (TypesFile.usedFilters {} statusSchema.tables).keys := by
      decide +kernel
    exact unfiltered hfilter
  · have apart : ∀ table ∈ statusSchema.tables, "Status" ∉ TypesFile.typeNames table := by
      decide +kernel
    exact apart table htable htype

end Sample

/-- The imports of a package resolve exactly if its parts fit together. -/
theorem Package.importsResolve_iff {schema : Schema} {settings : Settings} {package : Package}
    (wellFormed : schema.WellFormed) (h : of schema settings = .ok package) :
    package.ImportsResolve ↔ ∃ parts, Parts.of schema settings = .ok parts ∧ parts.Consistent := by
  obtain ⟨parts, hparts, rfl⟩ := exists_parts_of_eq_ok h
  have isOf := Parts.isOf_of_eq_ok hparts
  constructor
  · exact fun resolve => ⟨parts, hparts, Parts.consistent_of_importsResolve wellFormed isOf resolve⟩
  · rintro ⟨parts', hparts', consistent⟩
    obtain rfl : parts = parts' := Except.ok.inj (hparts.symm.trans hparts')
    exact consistent.importsResolve wellFormed isOf

/-- The imports of the package for the tickets resolve. -/
theorem Sample.importsResolve_ticketSchema :
    ∃ package, Package.of ticketSchema {} = .ok package ∧ package.ImportsResolve := by
  obtain ⟨parts, hparts, hcustom, htables, hfields⟩ : ∃ parts,
      Package.Parts.of ticketSchema {} = .ok parts ∧ parts.customMentions = ["Phase"] ∧
        (∀ name ∈ parts.tableMentions, name ∈ TypesFile.ownNames ticketSchema {}) ∧
          ∀ directory ∈ parts.directories, ∀ p ∈ directory.files, '/' ∉ p.1.toList := by
    decide +kernel
  have hof := Package.of_eq_ok hparts
  have isOf := Package.Parts.isOf_of_eq_ok hparts
  refine ⟨parts.package, hof, (Package.importsResolve_iff wellFormed_ticketSchema hof).2
    ⟨parts, hparts, ?_, ?_, ?_, ?_⟩⟩
  · intro directory field fragment operation
    obtain ⟨d, hd, -, description, hfile⟩ := Package.Parts.exists_file_of_operation operation
    exact ⟨_, _, operation.ofPath_inside (hfields d hd _ hfile)⟩
  · intro table htable _ _
    rw [isOf.blueprint_eq] at htable ⊢
    obtain rfl : table = ticketTable := List.mem_singleton.1 htable
    rw [TypesFile.mem_exportedNames_file_iff wellFormed_ticketSchema.named]
    exact .inr (.inr ⟨ticketTable, List.mem_cons_self, List.mem_cons_self⟩)
  · intro name hname _
    rw [hcustom, List.mem_singleton] at hname
    subst hname
    rw [isOf.blueprint_eq]
    rintro ⟨type, hfind, hbody⟩
    obtain rfl := Option.some.inj hfind
    cases hbody
  · intro name hname isOpen
    rw [isOf.defined_eq, isOf.blueprint_eq] at isOpen
    exact absurd (NameSet.mem_insertAll.2 (.inr (htables name hname))) isOpen.2

/-- The file of the operation imports the enum from the types file, which does not define it. -/
theorem Sample.not_importsResolve_statusSchema :
    ∃ package, Package.of statusSchema {} = .ok package ∧ ¬ package.ImportsResolve := by
  obtain ⟨parts, hparts⟩ : ∃ parts, Package.Parts.of statusSchema {} = .ok parts :=
    Package.exists_parts_of_unconfigured _ _ (fun _ => rfl) (fun _ => rfl)
  have isOf := Package.Parts.isOf_of_eq_ok hparts
  have hmentions : parts.customMentions = ["Status"] := isOf.customMentions_eq rfl rfl
  refine ⟨parts.package, Package.of_eq_ok hparts, fun resolve => ?_⟩
  have consistent :=
    Package.Parts.consistent_of_importsResolve wellFormed_statusSchema isOf resolve
  have hexported := consistent.ownNames statusTable
    (by rw [isOf.blueprint_eq]; exact List.mem_cons_self) (by decide)
    (.inl (hmentions ▸ List.mem_cons_self))
  rw [isOf.blueprint_eq] at hexported
  exact status_not_mem_exportedNames hexported

end GraphClient
