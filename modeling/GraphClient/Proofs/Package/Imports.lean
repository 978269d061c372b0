import GraphClient.Proofs.Package.Exports

/-!
# What the files of operations import

Apart from the types that it mentions, a file of an operation imports the names of the hook library
and names that the files at the top of the package export.

* `ImportSet.Asks` : a set of imports asks for a name.
* `Parts.Operation` : the files of operations, with their directories, names and contents.
* `Parts.Made` : what such a file is made from.
* `Parts.supports_imports_of_operation` : what the files ask for is there.
-/

namespace GraphClient

open TypeScript (Import ImportRequests ImportSet SourceFile)

/-! ## Names that are asked for -/

namespace TypeScript

/-- A name that is asked for is brought in by a statement. -/
theorem ImportRequests.exists_statement {requests : ImportRequests} {source name : String}
    (h : ∃ p ∈ requests, p.1 = source ∧ name ∈ p.2) (typeOnly : Bool) :
    ∃ statement ∈ statements requests typeOnly,
      statement.source = source ∧ name ∈ statement.names := by
  have hname : name ∈ (namesFrom requests source).names := mem_namesFrom.2 h
  refine ⟨⟨source, .names (namesFrom requests source).names, typeOnly⟩, ?_, rfl, hname⟩
  obtain ⟨p, hp, hsource, -⟩ := h
  refine List.mem_filterMap.2 ⟨source, NameSet.mem_ofList.2 (List.mem_map.2 ⟨p, hp, hsource⟩), ?_⟩
  have hne : (namesFrom requests source).names.isEmpty = false := by
    rw [List.isEmpty_eq_false_iff]
    exact List.ne_nil_of_mem hname
  simp [hne]

namespace ImportSet

/-- A name is asked for from a source. -/
def Asks (set : ImportSet) (source name : String) : Prop :=
  (∃ p ∈ set.values, p.1 = source ∧ name ∈ p.2) ∨ ∃ p ∈ set.types, p.1 = source ∧ name ∈ p.2

/-- The statements bring in exactly the names that are asked for. -/
theorem asks_iff_exists_statement (set : ImportSet) (source name : String) :
    set.Asks source name ↔
      ∃ statement ∈ set.statements, statement.source = source ∧ name ∈ statement.names := by
  constructor
  · rintro (h | h)
    · obtain ⟨statement, hmem, hnames⟩ := ImportRequests.exists_statement h false
      exact ⟨statement, List.mem_append_left _ hmem, hnames⟩
    · obtain ⟨statement, hmem, hnames⟩ := ImportRequests.exists_statement h true
      exact ⟨statement, List.mem_append_right _ hmem, hnames⟩
  · rintro ⟨statement, hmem, rfl, hname⟩
    rcases List.mem_append.1 hmem with hmem | hmem
    · exact .inl ((ImportRequests.mem_statements hmem name).1 hname)
    · exact .inr ((ImportRequests.mem_statements hmem name).1 hname)

/-- Every import statement names something. -/
theorem exists_mem_names {set : ImportSet} {statement : Import}
    (h : statement ∈ set.statements) : ∃ name, name ∈ statement.names := by
  have hrequests : ∀ (requests : ImportRequests) (typeOnly : Bool),
      statement ∈ requests.statements typeOnly → ∃ name, name ∈ statement.names := by
    intro requests typeOnly h
    obtain ⟨source, -, h⟩ := List.mem_filterMap.1 h
    simp only at h
    split at h
    · simp at h
    · next hne =>
      obtain rfl := Option.some.inj h
      rw [Bool.not_eq_true, List.isEmpty_eq_false_iff] at hne
      exact List.exists_mem_of_ne_nil _ hne
  rcases List.mem_append.1 h with h | h
  · exact hrequests _ _ h
  · exact hrequests _ _ h

/-- Two groups of imports ask for what either of them does. -/
theorem asks_append {a b : ImportSet} {source name : String} :
    (a ++ b).Asks source name ↔ a.Asks source name ∨ b.Asks source name := by
  simp only [Asks, values_append, types_append, List.mem_append, or_and_right, exists_or]
  exact or_or_or_comm

/-- The import of a value asks for it alone. -/
theorem asks_value {origin known source name : String} :
    (value origin known).Asks source name ↔ source = origin ∧ name = known := by
  simp [Asks, value, eq_comm]

/-- The import of some types asks for them alone. -/
theorem asks_typesFrom {origin source name : String} {names : List String} :
    (typesFrom origin names).Asks source name ↔ source = origin ∧ name ∈ names := by
  simp [Asks, typesFrom, eq_comm]

/-- No import asks for nothing. -/
theorem not_asks_empty {source name : String} : ¬ (({} : ImportSet).Asks source name) := by
  simp [Asks]

end ImportSet

end TypeScript

namespace Package

namespace Parts

/-! ## Names that are there -/

/-- A name is there for a file one directory below the top: a file at the top exports it. -/
def Provides (parts : Parts) (source name : String) : Prop :=
  ∃ p ∈ parts.topFiles, source = "../" ++ p.1 ∧ name ∈ p.2.exportedNames

/-- All that is asked for is there, apart from the names of the hook library. -/
def Supports (parts : Parts) (set : ImportSet) : Prop :=
  ∀ source name, set.Asks source name → source = Fragment.hookLibrary ∨ parts.Provides source name

variable {parts : Parts}

/-- Two groups of imports are met exactly if each of them is. -/
@[simp] theorem supports_append (a b : ImportSet) :
    parts.Supports (a ++ b) ↔ parts.Supports a ∧ parts.Supports b := by
  simp only [Supports, ImportSet.asks_append, or_imp, forall_and]

/-- No import is always met. -/
@[simp] theorem supports_empty : parts.Supports {} :=
  fun _ _ h => absurd h ImportSet.not_asks_empty

/-- The import of a value is met where the source provides it. -/
theorem supports_value {source name : String} (h : parts.Provides source name) :
    parts.Supports (.value source name) := by
  intro source' name' hasks
  obtain ⟨rfl, rfl⟩ := ImportSet.asks_value.1 hasks
  exact .inr h

/-- The import of some types is met where the source provides all of them. -/
theorem supports_typesFrom {source : String} {names : List String}
    (h : ∀ name ∈ names, parts.Provides source name) :
    parts.Supports (.typesFrom source names) := by
  intro source' name' hasks
  obtain ⟨rfl, hname⟩ := ImportSet.asks_typesFrom.1 hasks
  exact .inr (h name' hname)

/-- The library of hooks is outside the package, and its values are there. -/
@[simp] theorem supports_value_hookLibrary (name : String) :
    parts.Supports (.value Fragment.hookLibrary name) := by
  intro source' name' hasks
  exact .inl (ImportSet.asks_value.1 hasks).1

/-- The library of hooks is outside the package, and its types are there. -/
@[simp] theorem supports_typesFrom_hookLibrary (names : List String) :
    parts.Supports (.typesFrom Fragment.hookLibrary names) := by
  intro source' name' hasks
  exact .inl (ImportSet.asks_typesFrom.1 hasks).1

/-- A fragment that is left out under a condition only needs its imports where it stays. -/
theorem supports_when {condition : Bool} {fragment : Fragment}
    (h : condition = true → parts.Supports fragment.imports) :
    parts.Supports (Fragment.when condition fragment).imports := by
  cases condition with
  | false => exact supports_empty
  | true => exact h rfl

/-- The client provides the function that sends a request and the one that builds a selection. -/
theorem provides_client {name : String} (h : name ∈ ["execute", "selectionSet"]) :
    parts.Provides "../client" name := by
  refine ⟨("client", ClientFile.file parts.blueprint), by simp [topFiles], rfl, ?_⟩
  rw [ClientFile.exportedNames_file]
  simp only [List.mem_cons, List.not_mem_nil, or_false] at h ⊢
  rcases h with rfl | rfl <;> simp

/-- The file of the selection types provides those that other files use. -/
theorem provides_selectTypes {name : String}
    (h : name ∈ [connectionType, "InferSelectResult", "StrictSelect"]) :
    parts.Provides "../select-types" name := by
  refine ⟨("select-types", SelectTypes.file parts.blueprint), by simp [topFiles], rfl, ?_⟩
  rw [SelectTypes.exportedNames_file]
  simp only [List.mem_cons, List.not_mem_nil, or_false] at h ⊢
  rcases h with rfl | rfl | rfl <;> simp

/-- The file of the table types provides what it exports. -/
theorem provides_types {name : String}
    (h : name ∈ (TypesFile.file parts.blueprint).exportedNames) :
    parts.Provides "../types" name :=
  ⟨("types", TypesFile.file parts.blueprint), by simp [topFiles], rfl, h⟩

/-- The file of the query keys is there where keys are shared, and provides what it exports. -/
theorem provides_queryKeys {name : String} (shared : parts.blueprint.sharesKeys = true)
    (h : name ∈ parts.blueprint.keys.queryKeyItems.flatMap (·.exportedNames)) :
    parts.Provides "../query-keys" name :=
  ⟨("query-keys", parts.queryKeysFile), by simp [topFiles, shared], rfl, h⟩

/-- The file of the mutation keys is there where such keys are shared, and provides what it
exports. -/
theorem provides_mutationKeys {name : String} (shared : parts.blueprint.sharesMutationKeys = true)
    (h : name ∈ parts.blueprint.keys.mutationKeyItems.flatMap (·.exportedNames)) :
    parts.Provides "../mutation-keys" name :=
  ⟨("mutation-keys", parts.mutationKeysFile), by simp [topFiles, shared], rfl, h⟩

/-! ## The parts of files -/

/-- What a projected type refers to can be imported. -/
theorem supports_projection (projection : Projection) :
    parts.Supports (Fragment.projection projection).imports := by
  rw [Fragment.projection]
  cases projection.hasConnections with
  | false => exact supports_empty
  | true => exact supports_typesFrom fun name hname => provides_selectTypes (by simp_all)

/-- What the rows of a request need can be imported. -/
theorem supports_rowNeeds (request : Request) :
    parts.Supports (TableFiles.rowNeeds request).imports := by
  rw [TableFiles.rowNeeds]
  cases request.projection with
  | none => exact supports_empty
  | some projection => exact supports_projection projection

/-- What the sender of a request needs can be imported. -/
theorem supports_sender (names : OperationNames) (optional : Bool) :
    parts.Supports (Fragment.sender names optional).imports :=
  supports_value (provides_client (by simp))

/-- An accessor asks for the functions of the client, for the types of selections, and for two types
of its table. -/
theorem supports_accessor (named : parts.blueprint.schema.registry.Named) {table : Table}
    (h : table ∈ parts.blueprint.schema.tables) (page : PageNames) (names : OperationNames)
    (position : RowPosition) (request : Request) :
    parts.Supports
      (Accessor.fragment page table.name table.entityNames names position request).imports := by
  simp only [Accessor.fragment, supports_append]
  refine ⟨⟨⟨⟨?_, ?_⟩, ?_⟩, ?_⟩, ?_⟩
  · exact supports_value (provides_client (by simp))
  · exact supports_value (provides_client (by simp))
  · refine supports_typesFrom fun name hname => provides_selectTypes ?_
    simp only [List.mem_cons, List.not_mem_nil, or_false] at hname ⊢
    exact .inr hname
  · refine supports_typesFrom fun name hname => provides_types ?_
    rw [TypesFile.mem_exportedNames_file_iff named]
    refine .inr (.inr ⟨table, h, ?_⟩)
    simp only [List.mem_cons, List.not_mem_nil, or_false] at hname
    rcases hname with rfl | rfl <;> simp [TypesFile.typeNames]
  · split
    · exact supports_typesFrom fun name hname => provides_selectTypes (by simp_all)
    · exact supports_empty

/-- What the hooks of a query need can be imported. -/
theorem supports_queryHook (wanted : Bool) (names : OperationNames) (optional : Bool)
    (key : String) (scope : Option String) :
    parts.Supports (Fragment.queryHook wanted names optional key scope).imports :=
  supports_when fun _ => by simp

/-- What the hook of a mutation needs can be imported. -/
theorem supports_mutationHook (wanted : Bool) (names : OperationNames) (key : Option String)
    (invalidated : List String) :
    parts.Supports (Fragment.mutationHook wanted names key invalidated).imports := by
  refine supports_when fun _ => ?_
  simp only [supports_append, supports_value_hookLibrary, supports_typesFrom_hookLibrary,
    true_and]
  split <;> simp

section Factory

variable {factory : KeyFactory}

/-- The hooks of a table use the factory of its keys where keys are shared. -/
theorem supports_queryKeyImports (h : factory ∈ parts.blueprint.keys.factories) :
    parts.Supports (TableFiles.queryKeyImports parts.blueprint factory).imports := by
  refine supports_when fun hcondition => ?_
  obtain ⟨-, hshared⟩ : parts.blueprint.settings.hooks = true ∧
      parts.blueprint.sharesKeys = true := by simpa using hcondition
  obtain ⟨hkeys, hscope⟩ := KeyStore.mem_exportedNames_queryKeyItems h
  refine (supports_append _ _).2 ⟨supports_value (provides_queryKeys hshared hkeys), ?_⟩
  rw [TableFiles.scopeType]
  split
  · next hscoped =>
    refine supports_typesFrom fun name hname => provides_queryKeys hshared ?_
    obtain rfl : name = factory.scopeType := by simpa using hname
    exact hscope (by simp_all)
  · exact supports_empty

/-- The mutation keys of every table can be imported where they are shared. -/
theorem supports_mutationKeyImports (h : factory ∈ parts.blueprint.keys.factories) :
    parts.Supports (TableFiles.mutationKeyImports parts.blueprint factory).imports := by
  refine supports_when fun hcondition => ?_
  obtain ⟨-, hshared⟩ : parts.blueprint.settings.hooks = true ∧
      parts.blueprint.sharesKeys = true := by simpa using hcondition
  refine (supports_append _ _).2 ⟨supports_value (provides_queryKeys hshared
    (KeyStore.mem_exportedNames_queryKeyItems h).1), ?_⟩
  split
  · next hmutation =>
    exact supports_value (provides_mutationKeys
      (by rw [Blueprint.sharesMutationKeys, hshared, hmutation]; rfl)
      (KeyStore.mem_exportedNames_mutationKeyItems h))
  · exact supports_empty

/-! ## The files of operations -/

variable {table : Table}

/-- The file of the lists of a table. -/
theorem supports_list (named : parts.blueprint.schema.registry.Named)
    (hfactory : factory ∈ parts.blueprint.keys.factories)
    (htable : table ∈ parts.blueprint.schema.tables) (templates : TableTemplates) :
    parts.Supports (TableFiles.list parts.blueprint factory table templates).imports := by
  have hconnection : parts.Supports (.typesFrom "../select-types" [connectionType]) :=
    supports_typesFrom fun name hname => provides_selectTypes (by simp_all)
  have hfirst : parts.Supports
      (TableFiles.firstSender parts.blueprint.page table.entityNames).imports :=
    supports_value (provides_client (by simp))
  simp only [TableFiles.list, Fragment.imports_append, supports_append, Fragment.importing,
    Fragment.document, Fragment.answer, supports_empty, supports_sender, supports_rowNeeds,
    supports_queryHook, supports_accessor named htable, supports_queryKeyImports hfactory,
    hconnection, hfirst, and_self]

/-- The file of the single rows of a table. -/
theorem supports_one (named : parts.blueprint.schema.registry.Named)
    (hfactory : factory ∈ parts.blueprint.keys.factories)
    (htable : table ∈ parts.blueprint.schema.tables) (templates : TableTemplates) :
    parts.Supports (TableFiles.one parts.blueprint factory table templates).imports := by
  simp only [TableFiles.one, Fragment.imports_append, supports_append, Fragment.document,
    Fragment.answer, supports_empty, supports_sender, supports_rowNeeds, supports_queryHook,
    supports_accessor named htable, supports_queryKeyImports hfactory, and_self]

/-- The file of a mutation of a table. -/
theorem supports_mutation (named : parts.blueprint.schema.registry.Named)
    (hfactory : factory ∈ parts.blueprint.keys.factories)
    (htable : table ∈ parts.blueprint.schema.tables) (names : OperationNames) (action : String)
    (template : Request) (row : Option RowId) :
    parts.Supports
      (TableFiles.mutation parts.blueprint factory table names action template row).imports := by
  simp only [TableFiles.mutation, Fragment.imports_append, supports_append, Fragment.document,
    Fragment.answer, supports_empty, supports_sender, supports_rowNeeds, supports_mutationHook,
    supports_accessor named htable, supports_mutationKeyImports hfactory, and_self]

end Factory

/-- The hook of a custom operation uses the factory for the operations of its kind, which is there
if there is such an operation. -/
theorem supports_hook {operation : CustomOperation} (names : OperationNames) (optional : Bool)
    (hqueries : operation.kind = .query → parts.blueprint.keys.customQueries ≠ [])
    (hmutations : operation.kind = .mutation → parts.blueprint.keys.customMutations ≠ []) :
    parts.Supports (CustomFiles.hook parts.blueprint operation names optional).imports := by
  rw [CustomFiles.hook]
  cases hkind : operation.kind with
  | query =>
    simp only [CustomFiles.queryHook]
    split
    · next hshared =>
      refine (supports_append _ _).2 ⟨supports_when fun _ => ?_, supports_queryHook _ _ _ _ _⟩
      exact supports_value (provides_queryKeys hshared
        (KeyStore.customQueryKeys_mem_exportedNames (hqueries hkind)))
    · exact supports_queryHook _ _ _ _ _
  | mutation =>
    simp only [CustomFiles.mutationHook]
    split
    · exact supports_mutationHook _ _ _ _
    · next hmutation =>
      split
      · next hshared =>
        refine (supports_append _ _).2 ⟨supports_when fun _ => ?_, supports_mutationHook _ _ _ _⟩
        refine supports_value (provides_mutationKeys ?_
          (KeyStore.customMutationKeys_mem_exportedNames (hmutations hkind)))
        simp_all [Blueprint.sharesMutationKeys]
      · exact supports_mutationHook _ _ _ _

/-- The file of a custom operation. -/
theorem supports_fragment {operation : CustomOperation} (template : Request)
    (hqueries : operation.kind = .query → parts.blueprint.keys.customQueries ≠ [])
    (hmutations : operation.kind = .mutation → parts.blueprint.keys.customMutations ≠ []) :
    parts.Supports (CustomFiles.fragment parts.blueprint operation template).imports := by
  have hneeds : parts.Supports (CustomFiles.resultNeeds operation template.projection).imports := by
    cases template.projection with
    | some projection => exact supports_projection projection
    | none =>
      simp only [CustomFiles.resultNeeds]
      split <;> exact supports_empty
  simp only [CustomFiles.fragment, Fragment.imports_append, supports_append, Fragment.document,
    Fragment.answer, supports_empty, supports_sender, hneeds,
    supports_hook _ _ hqueries hmutations, and_self]

/-- The parts are those of a schema with some settings. -/
structure IsOf (schema : Schema) (settings : Settings) (parts : Parts) : Prop where
  blueprint_eq : parts.blueprint = .of schema settings
  defined_eq : parts.defined = TypesFile.definedNames parts.blueprint
  queries_eq : CustomFiles.fragments parts.blueprint schema.queries = .ok parts.customQueries
  mutations_eq : CustomFiles.fragments parts.blueprint schema.mutations = .ok parts.customMutations
  tables_eq : TableFiles.all parts.blueprint = .ok parts.tables

/-- The parts of a package keep the tables of the schema. -/
theorem IsOf.tables {schema : Schema} {settings : Settings} (h : parts.IsOf schema settings) :
    parts.blueprint.schema.tables = schema.tables := by
  rw [h.blueprint_eq]
  rfl

/-- The parts of a package keep the settings. -/
theorem IsOf.settings {schema : Schema} {settings : Settings} (h : parts.IsOf schema settings) :
    parts.blueprint.settings = settings := by
  rw [h.blueprint_eq]
  rfl

/-- The parts of a package keep the types of the registry under their names. -/
theorem IsOf.named {schema : Schema} {settings : Settings} (h : parts.IsOf schema settings)
    (named : schema.registry.Named) : parts.blueprint.schema.registry.Named := by
  rw [h.blueprint_eq]
  exact named

/-- Parts that are made from a schema and settings are parts of them. -/
theorem isOf_of_eq_ok {schema : Schema} {settings : Settings}
    (h : Parts.of schema settings = .ok parts) : parts.IsOf schema settings := by
  obtain ⟨customQueries, hqueries, h⟩ := exists_of_bind_eq_ok h
  obtain ⟨customMutations, hmutations, h⟩ := exists_of_bind_eq_ok h
  obtain ⟨tables, htables, h⟩ := exists_of_bind_eq_ok h
  obtain rfl := Except.ok.inj h
  exact ⟨rfl, rfl, hqueries, hmutations, htables⟩

/-- What is made of a custom operation is made from its template. -/
theorem exists_template_of_made {blueprint : Blueprint} {operation : CustomOperation}
    {made : CustomOperation × Fragment}
    (h : (((Request.custom blueprint.catalog blueprint.settings operation none none).mapError
      (RequestError.customOperation operation.name)).map fun template =>
        (operation, CustomFiles.fragment blueprint operation template)) = .ok made) :
    ∃ template, Request.custom blueprint.catalog blueprint.settings operation none none =
        .ok template ∧
      made = (operation, CustomFiles.fragment blueprint operation template) := by
  cases hcustom : Request.custom blueprint.catalog blueprint.settings operation none none with
  | error e =>
    rw [hcustom] at h
    cases h
  | ok template =>
    rw [hcustom] at h
    exact ⟨template, rfl, (Except.ok.inj h).symm⟩

/-- What is made of a table is made from its factory and its templates. -/
theorem exists_templates_of_made {blueprint : Blueprint} {table : Table}
    {made : TableFiles.Entries}
    (h : (match blueprint.keys.factory? table.entityKey with
      | some factory =>
        (TableTemplates.of blueprint table).map (TableFiles.entries blueprint factory table)
      | none => .error (.unknownEntity table.name)) = .ok made) :
    ∃ factory templates, blueprint.keys.factory? table.entityKey = some factory ∧
      TableTemplates.of blueprint table = .ok templates ∧
      made = TableFiles.entries blueprint factory table templates := by
  cases hfactory : blueprint.keys.factory? table.entityKey with
  | none =>
    rw [hfactory] at h
    cases h
  | some factory =>
    rw [hfactory] at h
    cases htemplates : TableTemplates.of blueprint table with
    | error e =>
      rw [htemplates] at h
      cases h
    | ok templates =>
      rw [htemplates] at h
      exact ⟨factory, templates, rfl, rfl, (Except.ok.inj h).symm⟩

/-- The files of a custom operation come from an operation of the schema and its template. -/
theorem exists_of_mem_fragments {blueprint : Blueprint} {operations : List CustomOperation}
    {fragments : List (CustomOperation × Fragment)}
    (h : CustomFiles.fragments blueprint operations = .ok fragments)
    {p : CustomOperation × Fragment} (hp : p ∈ fragments) :
    p.1 ∈ operations ∧ ∃ template, p.2 = CustomFiles.fragment blueprint p.1 template := by
  obtain ⟨operation, hoperation, hmade⟩ := exists_of_mem_mapM h hp
  obtain ⟨template, -, rfl⟩ := exists_template_of_made hmade
  exact ⟨hoperation, template, rfl⟩

/-- The files of a table come from a table of the schema, its factory and its templates. -/
theorem exists_of_mem_all {blueprint : Blueprint} {tables : List TableFiles.Entries}
    (h : TableFiles.all blueprint = .ok tables) {entries : TableFiles.Entries}
    (hentries : entries ∈ tables) :
    ∃ table ∈ blueprint.schema.tables, ∃ factory ∈ blueprint.keys.factories, ∃ templates,
      entries = TableFiles.entries blueprint factory table templates := by
  obtain ⟨table, htable, hmade⟩ := exists_of_mem_mapM h hentries
  obtain ⟨factory, templates, hfactory, -, rfl⟩ := exists_templates_of_made hmade
  exact ⟨table, htable, factory, List.mem_of_find?_eq_some hfactory, templates, rfl⟩

/-- Every table of a schema has a factory, templates, and the files that are made from them. -/
theorem exists_of_mem_tables {schema : Schema} {settings : Settings} {parts : Parts}
    (h : Parts.of schema settings = .ok parts) {table : Table} (htable : table ∈ schema.tables) :
    ∃ factory templates, parts.blueprint.keys.factory? table.entityKey = some factory ∧
      TableTemplates.of parts.blueprint table = .ok templates ∧
      TableFiles.entries parts.blueprint factory table templates ∈ parts.tables := by
  have hparts := isOf_of_eq_ok h
  have hmem : table ∈ parts.blueprint.schema.tables := by rwa [hparts.tables]
  obtain ⟨entries, hentries, hmade⟩ := exists_mem_of_mapM hparts.tables_eq hmem
  obtain ⟨factory, templates, hfactory, htemplates, rfl⟩ := exists_templates_of_made hmade
  exact ⟨factory, templates, hfactory, htemplates, hentries⟩

/-- A file of an operation: its directory, the root field that it is named after, and what it
holds. -/
inductive Operation (parts : Parts) : String → String → Fragment → Prop
  | tableQuery {entries : TableFiles.Entries} {entry : TableFiles.Entry}
      (table : entries ∈ parts.tables) (mem : entry ∈ entries.queries) :
      Operation parts "queries" entry.field entry.fragment
  | tableMutation {entries : TableFiles.Entries} {entry : TableFiles.Entry}
      (table : entries ∈ parts.tables) (mem : entry ∈ entries.mutations) :
      Operation parts "mutations" entry.field entry.fragment
  | customQuery {p : CustomOperation × Fragment} (mem : p ∈ parts.customQueries) :
      Operation parts "custom-queries" p.1.name p.2
  | customMutation {p : CustomOperation × Fragment} (mem : p ∈ parts.customMutations) :
      Operation parts "custom-mutations" p.1.name p.2

/-- What the file of an operation is made from: a table and the factory of its keys, or a custom
operation of the schema. -/
inductive Made (parts : Parts) (schema : Schema) : String → Fragment → Prop
  | list {table : Table} {factory : KeyFactory} (hasTable : table ∈ parts.blueprint.schema.tables)
      (hasFactory : factory ∈ parts.blueprint.keys.factories) (templates : TableTemplates) :
      Made parts schema table.entityNames.allField
        (TableFiles.list parts.blueprint factory table templates)
  | one {table : Table} {factory : KeyFactory} (hasTable : table ∈ parts.blueprint.schema.tables)
      (hasFactory : factory ∈ parts.blueprint.keys.factories) (templates : TableTemplates) :
      Made parts schema table.entityNames.oneField
        (TableFiles.one parts.blueprint factory table templates)
  | mutation {table : Table} {factory : KeyFactory}
      (hasTable : table ∈ parts.blueprint.schema.tables)
      (hasFactory : factory ∈ parts.blueprint.keys.factories) (field action : String)
      (template : Request) (row : Option RowId) :
      Made parts schema field (TableFiles.mutation parts.blueprint factory table
        (.ofField field .mutation) action template row)
  | customQuery {operation : CustomOperation} (mem : operation ∈ schema.queries)
      (template : Request) : Made parts schema operation.name
        (CustomFiles.fragment parts.blueprint operation template)
  | customMutation {operation : CustomOperation} (mem : operation ∈ schema.mutations)
      (template : Request) : Made parts schema operation.name
        (CustomFiles.fragment parts.blueprint operation template)

/-- The file of an operation is made in one of these ways. -/
theorem Operation.made {schema : Schema} {settings : Settings} (h : parts.IsOf schema settings)
    {directory field : String} {fragment : Fragment}
    (operation : parts.Operation directory field fragment) : parts.Made schema field fragment := by
  cases operation with
  | tableQuery table mem =>
    obtain ⟨table, htable, factory, hfactory, templates, rfl⟩ := exists_of_mem_all h.tables_eq table
    simp only [TableFiles.entries, List.mem_cons, List.not_mem_nil, or_false] at mem
    rcases mem with rfl | rfl
    · exact .list htable hfactory templates
    · exact .one htable hfactory templates
  | tableMutation table mem =>
    obtain ⟨table, htable, factory, hfactory, templates, rfl⟩ := exists_of_mem_all h.tables_eq table
    simp only [TableFiles.entries, List.mem_cons, List.not_mem_nil, or_false] at mem
    rcases mem with rfl | rfl | rfl
    all_goals exact .mutation htable hfactory _ _ _ _
  | customQuery mem =>
    obtain ⟨hmem, template, heq⟩ := exists_of_mem_fragments h.queries_eq mem
    exact heq ▸ .customQuery hmem template
  | customMutation mem =>
    obtain ⟨hmem, template, heq⟩ := exists_of_mem_fragments h.mutations_eq mem
    exact heq ▸ .customMutation hmem template

/-- Whatever a file of an operation asks for by itself is there. -/
theorem supports_imports_of_operation {schema : Schema} {settings : Settings}
    (wellFormed : schema.WellFormed) (h : parts.IsOf schema settings)
    {directory field : String} {fragment : Fragment}
    (operation : parts.Operation directory field fragment) : parts.Supports fragment.imports := by
  have named := h.named wellFormed.named
  cases operation.made h with
  | list htable hfactory templates => exact supports_list named hfactory htable templates
  | one htable hfactory templates => exact supports_one named hfactory htable templates
  | mutation htable hfactory => exact supports_mutation named hfactory htable _ _ _ _
  | customQuery hmem template =>
    -- The operation itself is why there is a factory for custom queries.
    refine supports_fragment template (fun _ hnil => ?_) fun hmutation => ?_
    · rw [h.blueprint_eq] at hnil
      exact absurd (List.map_eq_nil_iff.1 hnil) (List.ne_nil_of_mem hmem)
    · rw [wellFormed.queries _ hmem] at hmutation
      cases hmutation
  | customMutation hmem template =>
    refine supports_fragment template (fun hquery => ?_) fun _ hnil => ?_
    · rw [wellFormed.mutations _ hmem] at hquery
      cases hquery
    · rw [h.blueprint_eq] at hnil
      exact absurd (List.map_eq_nil_iff.1 hnil) (List.ne_nil_of_mem hmem)

end Parts

end Package

end GraphClient
